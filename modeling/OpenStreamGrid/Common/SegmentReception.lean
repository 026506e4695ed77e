import OpenStreamGrid.Common.SegmentFraming
import Mathlib.Data.List.Induction

/-!
# What a segment receiver makes of what it is sent

While a receiver waits its state is what it was sent, so it resolves with just
that; a sender that keeps to the framing makes it resolve with the segment.
-/

namespace OpenStreamGrid

namespace SegmentReceiver

theorem receive_append (R : SegmentReceiver) (events : List ChannelEvent) (event : ChannelEvent) :
    R.receive (events ++ [event]) = R.step (R.receive events) event := by
  unfold receive
  rw [List.foldl_append]
  rfl

/-! ## What a sequence of events amounts to -/

/-- The chunks received, in the order of their arrival. -/
def receivedChunks (events : List ChannelEvent) : List (List UInt8) :=
  (events.filterMap ChannelEvent.data?).filterMap ChannelData.binary?

/-- The length and number of chunks that were declared last. -/
def lastDeclared (events : List ChannelEvent) : Option (ℤ × ℤ) :=
  ((events.filterMap ChannelEvent.data?).filterMap ChannelData.declared?).getLast?

/-- The receiver is still waiting, with just what it was sent. -/
structure Pending (R : SegmentReceiver) (events : List ChannelEvent) (r : Reception) : Prop where
  listening : r.listening = true
  outcome : r.outcome = none
  chunks : r.chunks = receivedChunks events
  tallied : r.receivedBytes = r.buffered
  bounded : r.receivedBytes ≤ R.maxSegmentBytes
  declared : ∀ bytes count, r.expectedBytes = some bytes → r.expectedChunks = some count →
    lastDeclared events = some (↑bytes, ↑count) ∧ bytes ≤ R.maxSegmentBytes

/-- What a receiver resolves with, once all of `events` arrived. -/
structure Delivers (R : SegmentReceiver) (events : List ChannelEvent) (bytes : List UInt8) :
    Prop where
  concatenated : bytes = (receivedChunks events).flatten
  declared : lastDeclared events = some (↑bytes.length, ↑(receivedChunks events).length)
  bounded : bytes.length ≤ R.maxSegmentBytes

/-- The last of the events has settled the receiver. -/
structure Settles (R : SegmentReceiver) (events : List ChannelEvent) (r : Reception) : Prop where
  silent : r.listening = false
  settled : r.outcome.isSome
  delivers : ∀ bytes, r.outcome = some (.ok bytes) → R.Delivers events bytes
  bounded : r.buffered ≤ R.maxSegmentBytes + MAX_DATA_CHANNEL_CHUNK_BYTES

variable {R : SegmentReceiver} {events : List ChannelEvent} {event : ChannelEvent}
  {r r' t : Reception}

theorem receivedChunks_append (events : List ChannelEvent) (event : ChannelEvent) :
    receivedChunks (events ++ [event]) =
      receivedChunks events ++ (event.data?.bind ChannelData.binary?).toList := by
  unfold receivedChunks
  rw [List.filterMap_append, List.filterMap_append]
  congr 1
  cases event with
  | message data sendable => cases data <;> rfl
  | error => rfl
  | close => rfl
  | abort reason => rfl

theorem lastDeclared_append (events : List ChannelEvent) (event : ChannelEvent) :
    lastDeclared (events ++ [event]) =
      (event.data?.bind ChannelData.declared?).or (lastDeclared events) := by
  unfold lastDeclared
  rw [List.filterMap_append, List.filterMap_append, List.getLast?_append]
  congr 1
  cases hdata : event.data? with
  | none =>
      rw [List.filterMap_cons_none hdata]
      rfl
  | some data =>
      rw [List.filterMap_cons_some hdata]
      show (List.filterMap ChannelData.declared? [data]).getLast? = data.declared?
      cases hdeclared : data.declared? with
      | none => rw [List.filterMap_cons_none hdeclared]; rfl
      | some metadata => rw [List.filterMap_cons_some hdeclared]; rfl

/-! ## One event -/

theorem settles_fail (houtcome : t.outcome = none)
    (hroom : t.buffered ≤ R.maxSegmentBytes + MAX_DATA_CHANNEL_CHUNK_BYTES)
    (error : ReceiveError) : R.Settles events (t.fail error) where
  silent := rfl
  settled := rfl
  delivers bytes hbytes := by
    have hfailed : some (t.outcome.getD (.error error)) = some (.ok bytes) := hbytes
    rw [houtcome] at hfailed
    cases hfailed
  bounded := hroom

theorem Pending.room (h : R.Pending events r) :
    r.buffered ≤ R.maxSegmentBytes + MAX_DATA_CHANNEL_CHUNK_BYTES :=
  le_trans (h.tallied ▸ h.bounded) (Nat.le_add_right _ _)

theorem complete_waits {sendable : Bool}
    (h : r.expectedBytes = none ∨ r.expectedChunks ≠ some r.chunks.length) :
    R.complete r sendable = r := by
  unfold complete
  cases hbytes : r.expectedBytes with
  | none => rfl
  | some expectedBytes =>
      cases hcount : r.expectedChunks with
      | none => rfl
      | some expectedChunks =>
          refine if_pos fun heq => ?_
          rw [hbytes, hcount, heq] at h
          rcases h with hnone | hne
          · cases hnone
          · exact hne rfl

theorem complete_fails {expectedBytes : ℕ} {sendable : Bool}
    (hbytes : r.expectedBytes = some expectedBytes)
    (hcount : r.expectedChunks = some r.chunks.length) (htallied : r.receivedBytes = r.buffered)
    (hwrong : expectedBytes ≠ r.receivedBytes ∨ sendable = false) :
    ∃ error, R.complete r sendable = r.fail error := by
  unfold complete
  rw [hbytes, hcount]
  dsimp only
  rw [if_neg (not_not.mpr rfl)]
  by_cases hlength : r.receivedBytes ≠ expectedBytes
  · exact ⟨_, if_pos hlength⟩
  rw [if_neg hlength, htallied]
  unfold Reception.buffered
  rw [R.assemble_eq]
  dsimp only
  rcases hwrong with hwrong | hunsendable
  · exact absurd hwrong.symm hlength
  · exact ⟨_, if_pos hunsendable⟩

theorem complete_resolves (hbytes : r.expectedBytes = some r.receivedBytes)
    (hcount : r.expectedChunks = some r.chunks.length) (htallied : r.receivedBytes = r.buffered) :
    R.complete r true = r.resolve R.segmentName := by
  unfold complete
  rw [hbytes, hcount]
  dsimp only
  rw [if_neg (not_not.mpr rfl), if_neg (not_not.mpr rfl), htallied]
  unfold Reception.buffered
  rw [R.assemble_eq]
  exact if_neg (by decide)

/-- The check for completion, with the state as it was sent. -/
theorem Pending.complete (h : R.Pending events r) (sendable : Bool) :
    R.Pending events (R.complete r sendable) ∨ R.Settles events (R.complete r sendable) := by
  by_cases hwaits : r.expectedBytes = none ∨ r.expectedChunks ≠ some r.chunks.length
  · left
    rw [complete_waits hwaits]
    exact h
  right
  obtain ⟨hknown, hcount⟩ := not_or.mp hwaits
  rw [not_not] at hcount
  obtain ⟨expectedBytes, hbytes⟩ := Option.ne_none_iff_exists'.mp hknown
  by_cases hfine : expectedBytes = r.receivedBytes ∧ sendable = true
  · obtain ⟨rfl, rfl⟩ := hfine
    rw [complete_resolves hbytes hcount h.tallied]
    refine ⟨rfl, rfl, fun bytes hbytes' => ?_, h.room⟩
    obtain ⟨hdeclared, hle⟩ := h.declared _ _ hbytes hcount
    have houtcome : some (r.outcome.getD (.ok r.chunks.flatten)) = some (.ok bytes) := hbytes'
    rw [h.outcome] at houtcome
    obtain rfl : r.chunks.flatten = bytes := Except.ok.inj (Option.some.inj houtcome)
    have hlength : r.chunks.flatten.length = r.receivedBytes := by
      rw [List.length_flatten, h.tallied]
      rfl
    refine ⟨by rw [h.chunks], ?_, hlength ▸ hle⟩
    rw [hlength, ← h.chunks]
    exact hdeclared
  · rw [not_and_or, Bool.not_eq_true] at hfine
    obtain ⟨error, heq⟩ := complete_fails hbytes hcount h.tallied hfine
    rw [heq]
    exact settles_fail h.outcome h.room error

theorem onText_accepted {message : JsValue} {metadata : ℕ × ℕ} (sendable : Bool)
    (h : acceptedMetadata? R.maxSegmentBytes R.segmentName message = some metadata) :
    R.onText r (some message) sendable = R.complete (r.declare metadata) sendable := by
  obtain ⟨hresponse, fields, rfl⟩ := accepted_response h
  unfold onText
  dsimp only [parseJsonObject]
  rw [if_neg (by rw [hresponse]; decide), h]

/-- A text that is not accepted as the segment's response. -/
theorem onText_rejects (r : Reception) {json : Option JsValue} (sendable : Bool)
    (h : ∀ message metadata, json = some message →
      acceptedMetadata? R.maxSegmentBytes R.segmentName message ≠ some metadata) :
    r.Rejects (R.onText r json sendable) := by
  unfold onText
  cases hparse : R.parseJsonObject json with
  | error error => exact r.rejects_fail error
  | ok message =>
      dsimp only
      by_cases herror : (message.get "type").isText "segment_error" = true
      · rw [if_pos herror]
        by_cases hsendable : sendable = false
        · rw [if_pos hsendable]
          exact r.rejects_fail .engine
        · exact ⟨r.acknowledge R.segmentName, _, if_neg hsendable, rfl, Or.inl rfl⟩
      · rw [if_neg herror]
        have hjson : json = some message := by
          cases json with
          | none => cases hparse
          | some value =>
              cases value with
              | record fields => rw [Except.ok.inj hparse]
              | _ => cases hparse
        rw [Option.eq_none_iff_forall_ne_some.mpr fun metadata => h message metadata hjson]
        exact r.rejects_fail _

theorem onData_room {data : ChannelData} {chunk : List UInt8} (sendable : Bool)
    (hdata : data.binary? = some chunk) (h : r.Room chunk) :
    R.onData r data sendable = R.complete (r.push chunk) sendable := by
  obtain ⟨bytes, count, hbytes, hcount, hsmall, hmore, hlength⟩ := h
  unfold onData
  rw [hbytes, hcount, hdata]
  dsimp only
  rw [if_neg (Nat.not_lt.mpr hsmall), if_neg]
  rintro (hover | hover)
  · rw [r.length_push] at hover
    omega
  · have hreceived : (r.push chunk).receivedBytes = r.receivedBytes + chunk.length := rfl
    omega

/-- Data that is no chunk, or one there is no room for. -/
theorem onData_rejects (r : Reception) {data : ChannelData} (sendable : Bool)
    (h : ∀ chunk, data.binary? = some chunk → ¬ r.Room chunk) :
    r.Rejects (R.onData r data sendable) := by
  unfold onData
  cases hbytes : r.expectedBytes with
  | none => exact r.rejects_fail _
  | some expectedBytes =>
      cases hcount : r.expectedChunks with
      | none => exact r.rejects_fail _
      | some expectedChunks =>
          dsimp only
          cases hdata : data.binary? with
          | none => exact r.rejects_fail _
          | some chunk =>
              dsimp only
              by_cases hlarge : MAX_DATA_CHANNEL_CHUNK_BYTES < chunk.length
              · rw [if_pos hlarge]
                exact r.rejects_fail _
              rw [if_neg hlarge]
              -- the chunk is kept although there was no room for it
              refine ⟨r.push chunk, _, if_pos ?_, rfl, Or.inr ⟨chunk, Nat.not_lt.mp hlarge, rfl⟩⟩
              by_contra hfits
              obtain ⟨hmore, hlength⟩ := not_or.mp hfits
              rw [r.length_push] at hmore
              exact h chunk hdata ⟨expectedBytes, expectedChunks, hbytes, hcount,
                Nat.not_lt.mp hlarge, Nat.not_lt.mp hmore, Nat.not_lt.mp hlength⟩

/-- **A control message** the receiver accepts replaces what was declared before. -/
theorem Pending.declare (h : R.Pending events r) {message : JsValue} {metadata : ℕ × ℕ}
    (sendable : Bool)
    (hmetadata : acceptedMetadata? R.maxSegmentBytes R.segmentName message = some metadata) :
    R.Pending (events ++ [.message (.text (some message)) sendable]) (r.declare metadata) where
  listening := h.listening
  outcome := h.outcome
  chunks := by
    rw [receivedChunks_append]
    show r.chunks = receivedChunks events ++ []
    rw [List.append_nil, h.chunks]
  tallied := h.tallied
  bounded := h.bounded
  declared := by
    rintro bytes count hbytes hcount
    obtain rfl := Option.some.inj hbytes
    obtain rfl := Option.some.inj hcount
    obtain ⟨hdeclared, hle⟩ := accepted_declared hmetadata
    refine ⟨?_, hle⟩
    rw [lastDeclared_append]
    show Option.or (ChannelData.text (some message)).declared? _ = _
    rw [hdeclared]
    rfl

/-- **A chunk** there is room for. -/
theorem Pending.push (h : R.Pending events r) {data : ChannelData} {chunk : List UInt8}
    (sendable : Bool) (hdata : data.binary? = some chunk) (hroom : r.Room chunk) :
    R.Pending (events ++ [.message data sendable]) (r.push chunk) where
  listening := h.listening
  outcome := h.outcome
  chunks := by
    rw [receivedChunks_append]
    show r.chunks ++ [chunk] = receivedChunks events ++ data.binary?.toList
    rw [hdata, h.chunks]
    rfl
  tallied := by
    rw [Reception.buffered_push, ← h.tallied]
    rfl
  bounded := by
    obtain ⟨bytes, count, hbytes, hcount, -, -, hle⟩ := hroom
    exact le_trans hle (h.declared bytes count hbytes hcount).2
  declared := by
    intro bytes count hbytes hcount
    obtain ⟨hdeclared, hle⟩ := h.declared bytes count hbytes hcount
    refine ⟨?_, hle⟩
    rw [lastDeclared_append, ← hdeclared]
    show Option.or data.declared? _ = _
    cases data with
    | text json => cases hdata
    | arrayBuffer bytes => rfl
    | view bytes => rfl
    | other => rfl

/-- One event leaves a waiting receiver waiting, or settles it. -/
theorem Pending.step (h : R.Pending events r) (event : ChannelEvent) :
    R.Pending (events ++ [event]) (R.step r event) ∨
      R.Settles (events ++ [event]) (R.step r event) := by
  unfold SegmentReceiver.step
  rw [if_neg (by rw [h.listening]; decide)]
  cases event with
  | error => exact Or.inr (settles_fail h.outcome h.room _)
  | close => exact Or.inr (settles_fail h.outcome h.room _)
  | abort reason => exact Or.inr (settles_fail h.outcome h.room _)
  | message data sendable =>
      dsimp only
      have hrejected : ∀ r', r.Rejects r' → R.Settles (events ++ [.message data sendable]) r' := by
        rintro r' ⟨t, error, rfl, houtcome, hchunks⟩
        refine settles_fail (houtcome.trans h.outcome) ?_ error
        have hbounded : r.buffered ≤ R.maxSegmentBytes := h.tallied ▸ h.bounded
        unfold Reception.buffered at hbounded ⊢
        rcases hchunks with hsame | ⟨chunk, hchunk, hmore⟩
        · rw [hsame]
          exact le_trans hbounded (Nat.le_add_right _ _)
        · rw [hmore, List.map_append, List.sum_append, List.map_singleton, List.sum_singleton]
          exact Nat.add_le_add hbounded hchunk
      by_cases htext : ∃ json, data = .text json
      · obtain ⟨json, rfl⟩ := htext
        show R.Pending _ (R.onText r json sendable) ∨ _
        by_cases haccepted : ∃ message metadata, json = some message ∧
            acceptedMetadata? R.maxSegmentBytes R.segmentName message = some metadata
        · obtain ⟨message, metadata, rfl, hmetadata⟩ := haccepted
          have hcomplete := (h.declare sendable hmetadata).complete sendable
          rw [← onText_accepted sendable hmetadata] at hcomplete
          exact hcomplete
        · refine Or.inr (hrejected _ (onText_rejects r sendable fun message metadata => ?_))
          intro hjson hmetadata
          exact haccepted ⟨message, metadata, hjson, hmetadata⟩
      · have hdata : R.onMessage r data sendable = R.onData r data sendable := by
          cases data with
          | text json => exact absurd ⟨json, rfl⟩ htext
          | _ => rfl
        rw [hdata]
        by_cases hchunk : ∃ chunk, data.binary? = some chunk ∧ r.Room chunk
        · obtain ⟨chunk, hbinary, hroom⟩ := hchunk
          have hcomplete := (h.push sendable hbinary hroom).complete sendable
          rw [← onData_room sendable hbinary hroom] at hcomplete
          exact hcomplete
        · refine Or.inr (hrejected _ (onData_rejects r sendable fun chunk hbinary hroom => ?_))
          exact hchunk ⟨chunk, hbinary, hroom⟩

theorem step_of_silent (h : r.listening = false) (event : ChannelEvent) : R.step r event = r := by
  unfold SegmentReceiver.step
  exact if_pos h

/-! ## Any sequence of events -/

theorem pending_nil (R : SegmentReceiver) : R.Pending [] (R.receive []) where
  listening := rfl
  outcome := rfl
  chunks := rfl
  tallied := rfl
  bounded := Nat.zero_le _
  declared := by
    intro bytes count hbytes
    cases hbytes

/-- A receiver is waiting, or one of the events settled it and the others left no trace. -/
theorem pending_or_settled (R : SegmentReceiver) (events : List ChannelEvent) :
    R.Pending events (R.receive events) ∨
      ∃ before event after, events = before ++ event :: after ∧
        R.Pending before (R.receive before) ∧
        R.Settles (before ++ [event]) (R.receive (before ++ [event])) ∧
        R.receive events = R.receive (before ++ [event]) := by
  induction events using List.reverseRecOn with
  | nil => exact Or.inl R.pending_nil
  | append_singleton events event ih =>
      rcases ih with hpending | ⟨before, event', after, rfl, hbefore, hsettles, heq⟩
      · rcases hpending.step event with hstep | hstep
        · left
          rw [receive_append]
          exact hstep
        · right
          rw [← receive_append] at hstep
          exact ⟨events, event, [], rfl, hpending, hstep, rfl⟩
      · refine Or.inr ⟨before, event', after ++ [event], ?_, hbefore, hsettles, ?_⟩
        · rw [List.append_assoc, List.cons_append]
        · rw [receive_append, heq, step_of_silent hsettles.silent]

theorem receive_of_settled (h : (R.receive events).outcome.isSome) :
    ∀ more, R.receive (events ++ more) = R.receive events := by
  intro more
  induction more using List.reverseRecOn with
  | nil => rw [List.append_nil]
  | append_singleton more event ih =>
      have hsilent : (R.receive events).listening = false := by
        rcases R.pending_or_settled events with hpending | ⟨_, _, _, -, -, hsettles, heq⟩
        · rw [hpending.outcome] at h
          cases h
        · rw [heq]
          exact hsettles.silent
      rw [← List.append_assoc, receive_append, ih, step_of_silent hsilent]

/-- What holds of a receiver after any sequence of events. -/
structure Contained (R : SegmentReceiver) (events : List ChannelEvent) : Prop where
  /-- It resolves at one of the events, with what was declared and received up to it. -/
  delivers : ∀ bytes, (R.receive events).outcome = some (.ok bytes) →
    ∃ before event after, events = before ++ event :: after ∧
      (R.receive before).outcome = none ∧
      (R.receive (before ++ [event])).outcome = some (.ok bytes) ∧
      R.Delivers (before ++ [event]) bytes
  bounded : (R.receive events).buffered ≤ R.maxSegmentBytes + MAX_DATA_CHANNEL_CHUNK_BYTES
  final : (R.receive events).outcome.isSome →
    ∀ more, R.receive (events ++ more) = R.receive events

theorem contained (R : SegmentReceiver) (events : List ChannelEvent) : R.Contained events where
  delivers bytes hbytes := by
    rcases R.pending_or_settled events with hpending | ⟨before, event, after, hsplit, hbefore,
      hsettles, heq⟩
    · rw [hpending.outcome] at hbytes
      cases hbytes
    · rw [heq] at hbytes
      exact ⟨before, event, after, hsplit, hbefore.outcome, hbytes, hsettles.delivers bytes hbytes⟩
  bounded := by
    rcases R.pending_or_settled events with hpending | ⟨before, event, after, -, -, hsettles, heq⟩
    · exact hpending.room
    · rw [heq]
      exact hsettles.bounded
  final := receive_of_settled

/-! ## A sender that keeps to the framing -/

theorem acceptedMetadata?_segmentResponse {maxSegmentBytes byteLength chunkCount : ℕ}
    (segmentName : String) (hsafe : maxSegmentBytes ≤ maxSafeInteger)
    (hbytes : byteLength ≤ maxSegmentBytes)
    (hcount : chunkCount ≤ (maxSegmentBytes + MAX_DATA_CHANNEL_CHUNK_BYTES - 1) /
      MAX_DATA_CHANNEL_CHUNK_BYTES) :
    acceptedMetadata? maxSegmentBytes segmentName
      (segmentResponse segmentName byteLength chunkCount) = some (byteLength, chunkCount) := by
  have hcountSafe : chunkCount ≤ maxSafeInteger := by
    have hround : (maxSegmentBytes + MAX_DATA_CHANNEL_CHUNK_BYTES - 1) /
        MAX_DATA_CHANNEL_CHUNK_BYTES ≤ maxSegmentBytes := by
      rw [Nat.div_le_iff_le_mul_add_pred (by decide)]
      unfold MAX_DATA_CHANNEL_CHUNK_BYTES
      omega
    omega
  show Option.bind (JsNumber.safeInteger? (.finite byteLength)) (fun byteLength =>
    Option.bind (JsNumber.safeInteger? (.finite chunkCount)) fun chunkCount => _) = _
  rw [JsNumber.safeInteger?_natCast (le_trans hbytes hsafe),
    JsNumber.safeInteger?_natCast hcountSafe, Option.bind_some, Option.bind_some, if_pos]
  · rfl
  · refine ⟨rfl, ?_, Int.natCast_nonneg _, Int.natCast_nonneg _, Int.ofNat_le.mpr hbytes,
      Int.ofNat_le.mpr hcount⟩
    show decide (some segmentName = some segmentName) = true
    exact decide_eq_true rfl

/-- The messages carry these chunks, one each. -/
def Carry (frames : List ChannelData) (chunks : List (List UInt8)) : Prop :=
  List.Forall₂ (fun frame chunk => frame.binary? = some chunk) frames chunks

/-- A receiver told how much is still to come resolves once it came. -/
theorem receive_chunks {frames : List ChannelData} {chunks : List (List UInt8)}
    (hcarry : Carry frames chunks) : ∀ r : Reception, chunks ≠ [] → r.listening = true →
    r.outcome = none → r.receivedBytes = r.buffered →
    r.expectedChunks = some (r.chunks.length + chunks.length) →
    r.expectedBytes = some (r.receivedBytes + chunks.flatten.length) →
    (∀ chunk ∈ chunks, chunk.length ≤ MAX_DATA_CHANNEL_CHUNK_BYTES) →
    ((frames.map fun frame => ChannelEvent.message frame true).foldl R.step r).outcome =
      some (.ok (r.chunks ++ chunks).flatten) := by
  induction hcarry with
  | nil =>
      intro r hne
      exact absurd rfl hne
  | @cons frame chunk frames chunks hframe _ ih =>
      intro r _ hlistening houtcome htallied hcount hbytes hsmall
      rw [List.length_cons] at hcount
      rw [List.flatten_cons, List.length_append] at hbytes
      have hroom : r.Room chunk := ⟨_, _, hbytes, hcount, hsmall chunk List.mem_cons_self,
        by omega, by omega⟩
      have hpushed : (r.push chunk).receivedBytes = (r.push chunk).buffered := by
        rw [Reception.buffered_push, ← htallied]
        rfl
      have hstep : R.step r (.message frame true) = R.complete (r.push chunk) true := by
        unfold SegmentReceiver.step
        rw [if_neg (by rw [hlistening]; decide), ← onData_room true hframe hroom]
        cases frame with
        | text json => cases hframe
        | _ => rfl
      rw [List.map_cons, List.foldl_cons, hstep]
      by_cases hlast : chunks = []
      · subst hlast
        have hcount' : (r.push chunk).expectedChunks = some (r.push chunk).chunks.length := by
          rw [r.length_push]
          exact hcount
        rename_i hrest _
        cases hrest
        rw [complete_resolves hbytes hcount' hpushed]
        show some (r.outcome.getD (.ok (r.chunks ++ [chunk]).flatten)) = _
        rw [houtcome]
        rfl
      · have hpositive : 0 < chunks.length := List.length_pos_of_ne_nil hlast
        have hmore : (r.push chunk).expectedChunks ≠ some (r.push chunk).chunks.length := by
          rw [r.length_push]
          show r.expectedChunks ≠ _
          rw [hcount]
          intro heq
          have := Option.some.inj heq
          omega
        rw [complete_waits (Or.inr hmore), ih (r.push chunk) hlast hlistening houtcome hpushed]
        · show some (Except.ok ((r.chunks ++ [chunk]) ++ chunks).flatten) = _
          rw [List.append_assoc, List.singleton_append]
        · show r.expectedChunks = _
          rw [hcount, r.length_push]
          congr 1
          omega
        · show r.expectedBytes = some (r.receivedBytes + chunk.length + _)
          rw [hbytes, Nat.add_assoc]
        · exact fun chunk' hchunk' => hsmall chunk' (List.mem_cons_of_mem _ hchunk')

/-- **The round trip**: a control message and the slices of a segment are received as the
segment. -/
theorem receive_segment {data : List UInt8}
    (hne : data ≠ []) (hle : data.length ≤ R.maxSegmentBytes) {frames : List ChannelData}
    (hcarry : Carry frames (slices MAX_DATA_CHANNEL_CHUNK_BYTES data)) :
    (R.receive ((.text (some (segmentResponse R.segmentName data.length
      ((data.length + MAX_DATA_CHANNEL_CHUNK_BYTES - 1) / MAX_DATA_CHANNEL_CHUNK_BYTES)))
        :: frames).map fun frame => .message frame true)).outcome = some (.ok data) := by
  have hpositive : 0 < MAX_DATA_CHANNEL_CHUNK_BYTES := by decide
  have hmetadata := acceptedMetadata?_segmentResponse R.segmentName R.maxSegmentBytes.2.2 hle
    (Nat.div_le_div_right (by omega : data.length + MAX_DATA_CHANNEL_CHUNK_BYTES - 1 ≤
      R.maxSegmentBytes + MAX_DATA_CHANNEL_CHUNK_BYTES - 1))
  have hsome : slices MAX_DATA_CHANNEL_CHUNK_BYTES data ≠ [] := by
    rw [slices_of_ne_nil hpositive hne]
    exact List.cons_ne_nil _ _
  have hcount : (slices MAX_DATA_CHANNEL_CHUNK_BYTES data).length =
      (data.length + MAX_DATA_CHANNEL_CHUNK_BYTES - 1) / MAX_DATA_CHANNEL_CHUNK_BYTES := by
    unfold slices
    rw [List.length_map, List.length_range]
  have hmore : some (slices MAX_DATA_CHANNEL_CHUNK_BYTES data).length ≠ some 0 := by
    intro heq
    exact hsome (List.length_eq_zero_iff.mp (Option.some.inj heq))
  have hfirst : R.step .start (.message (.text (some (segmentResponse R.segmentName data.length
      ((data.length + MAX_DATA_CHANNEL_CHUNK_BYTES - 1) / MAX_DATA_CHANNEL_CHUNK_BYTES)))) true) =
      Reception.start.declare (data.length, (slices MAX_DATA_CHANNEL_CHUNK_BYTES data).length) := by
    unfold SegmentReceiver.step
    rw [if_neg (by decide)]
    dsimp only [onMessage]
    rw [onText_accepted true hmetadata, ← hcount, complete_waits (Or.inr hmore)]
  unfold receive
  rw [List.map_cons, List.foldl_cons, hfirst, receive_chunks hcarry _ hsome rfl rfl rfl]
  · show some (Except.ok (slices MAX_DATA_CHANNEL_CHUNK_BYTES data).flatten) = _
    rw [flatten_slices hpositive]
  · show some _ = some (0 + _)
    rw [Nat.zero_add]
  · show some _ = some (0 + _)
    rw [flatten_slices hpositive, Nat.zero_add]
  · intro chunk hchunk
    obtain ⟨k, -, rfl⟩ := List.mem_map.mp hchunk
    rw [List.length_take]
    exact min_le_left _ _

end SegmentReceiver

end OpenStreamGrid
