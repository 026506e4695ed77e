import Mathlib.Tactic.SplitIfs
import Mathlib.Data.Nat.Cast.Order.Ring
import Mathlib.Data.Int.Order.Basic
import OpenStreamGrid.Lib.TransitionSystem

/-!
# Upload slots

`acceptOffer` of the Node transport and of the browser peer. Both count their
upload connections, and a connection can end by its negotiation, its timer, its
state, its channels, several of these one after the other. The two differ in
what a channel with another label does and in the timer, so they are one system
with rules.
-/

namespace OpenStreamGrid

def DATA_CHANNEL_LABEL : String := "segment-request"

/-- The awaited steps of the answer to an offer. -/
inductive Negotiation where
  | settingRemoteDescription
  | creatingAnswer
  | settingLocalDescription
  | gatheringIce
  | answered
  | failed
deriving DecidableEq

namespace Negotiation

def pending : Negotiation → Bool
  | .answered | .failed => false
  | _ => true

def next : Negotiation → Negotiation
  | .settingRemoteDescription => .creatingAnswer
  | .creatingAnswer => .settingLocalDescription
  | .settingLocalDescription => .gatheringIce
  | .gatheringIce => .answered
  | ended => ended

theorem next_ne_failed {negotiation : Negotiation} (h : negotiation.pending = true) :
    negotiation.next ≠ .failed := by
  cases negotiation with
  | failed => cases h
  | settingRemoteDescription | creatingAnswer | settingLocalDescription | gatheringIce | answered =>
      exact fun heq => by cases heq

end Negotiation

/-- `serveSegment` on one data channel. -/
inductive Serving where
  | waitingForRequest
  | readingSegment
  /-- Chunks or an error are being sent, or the receipt is waited for. -/
  | sending
  | settled
deriving DecidableEq

inductive RtcConnectionState where
  | new
  | connecting
  | connected
  | disconnected
  | failed
  | closed
deriving DecidableEq

structure UploadConnection where
  /-- In the set of connections that `stop` closes. -/
  active : Bool
  closed : Bool
deriving DecidableEq

/-- An accepted offer. -/
structure Upload where
  /-- There is none if the factory has thrown. -/
  connection : Option UploadConnection
  negotiation : Negotiation
  /-- The channels that are or were served. -/
  channels : List Serving
  /-- `controller.signal.aborted` -/
  signalAborted : Bool
  timerArmed : Bool
  finished : Bool
  /-- How often the counter was decremented for this offer. -/
  releases : ℕ
deriving DecidableEq

/-- In what the two sides differ. -/
structure UploadRules where
  maxUploadConnections : {n : ℕ // 0 < n}
  /-- A channel with another label is closed; it may also end the upload. -/
  unknownChannelFinishes : Bool
  /-- The timer starts again once the segment is read. -/
  extendsTimeout : Bool
  /-- Offers are heard from `start` on, also after a stop; the other side hears them from its
  construction to its stop. -/
  restarts : Bool

structure UploadSlots where
  activeUploadConnections : ℤ
  uploads : List Upload
  stopped : Bool
deriving DecidableEq

inductive UploadEvent where
  | start
  /-- An offer arrives; the connection factory may throw. -/
  | offer (created : Bool)
  /-- The pending step of the negotiation succeeds. -/
  | negotiated (upload : ℕ)
  | negotiationFails (upload : ℕ)
  | timerFires (upload : ℕ)
  | connectionStateChange (upload : ℕ) (state : RtcConnectionState)
  | dataChannel (upload : ℕ) (label : String)
  /-- A valid request arrives on a channel. -/
  | requested (upload channel : ℕ)
  | segmentRead (upload channel : ℕ) (found : Bool)
  /-- `serveSegment` is over: the receipt arrives, the channel closes or fails, a request is
  invalid, the signal aborts, sending throws. -/
  | servingSettles (upload channel : ℕ)
  | stop
deriving DecidableEq

namespace Upload

/-- The first `finish` of an upload. -/
def finish (upload : Upload) : Upload :=
  { upload with
    finished := true
    timerArmed := false
    releases := upload.releases + 1
    connection := upload.connection.map fun _ => ⟨false, true⟩ }

/-- The factory has thrown: the counter goes up and down at once. -/
def refused : Upload := ⟨none, .failed, [], false, false, true, 1⟩

def accepted : Upload :=
  ⟨some ⟨true, false⟩, .settingRemoteDescription, [], false, true, false, 0⟩

end Upload

namespace UploadSlots

def new (rules : UploadRules) : UploadSlots := ⟨0, [], rules.restarts⟩

def update (s : UploadSlots) (i : ℕ) (upload : Upload) : UploadSlots :=
  { s with uploads := s.uploads.set i upload }

/-- `finish`, of which only the first call does something. -/
def finish (s : UploadSlots) (i : ℕ) (upload : Upload) : UploadSlots :=
  if upload.finished then s.update i upload
  else { s.update i upload.finish with activeUploadConnections := s.activeUploadConnections - 1 }

def acceptOffer (rules : UploadRules) (s : UploadSlots) (created : Bool) : UploadSlots :=
  if (rules.maxUploadConnections.val : ℤ) ≤ s.activeUploadConnections then s
  else
    let s := { s with activeUploadConnections := s.activeUploadConnections + 1 }
    if created then { s with uploads := s.uploads ++ [.accepted] }
    else
      { s with
        activeUploadConnections := s.activeUploadConnections - 1
        uploads := s.uploads ++ [.refused] }

def onTimer (s : UploadSlots) (i : ℕ) (upload : Upload) : UploadSlots :=
  let aborted := { upload with timerArmed := false, signalAborted := true }
  -- the abort event is sent once
  if upload.signalAborted then s.update i aborted else s.finish i aborted

def onConnectionStateChange (s : UploadSlots) (i : ℕ) (upload : Upload) :
    RtcConnectionState → UploadSlots
  | .failed => s.finish i upload
  | .closed =>
      s.finish i { upload with
        connection := upload.connection.map fun connection => { connection with closed := true } }
  | _ => s

def onDataChannel (rules : UploadRules) (s : UploadSlots) (i : ℕ) (upload : Upload)
    (label : String) : UploadSlots :=
  if label ≠ DATA_CHANNEL_LABEL then
    if rules.unknownChannelFinishes then s.finish i upload else s
  else s.update i { upload with channels := upload.channels ++ [.waitingForRequest] }

def onSegmentRead (rules : UploadRules) (s : UploadSlots) (i : ℕ) (upload : Upload) (channel : ℕ)
    (found : Bool) : UploadSlots :=
  s.update i { upload with
    channels := upload.channels.set channel .sending
    timerArmed := upload.timerArmed || (rules.extendsTimeout && found) }

def stop (s : UploadSlots) : UploadSlots :=
  { s with
    stopped := true
    uploads := s.uploads.map fun upload => { upload with
      connection := upload.connection.map fun connection =>
        if connection.active then ⟨false, true⟩ else connection } }

def step (rules : UploadRules) (s : UploadSlots) : UploadEvent → Option UploadSlots
  | .start => if rules.restarts then some { s with stopped := false } else none
  | .offer created => if s.stopped then none else some (s.acceptOffer rules created)
  | .negotiated i => (s.uploads[i]?).bind fun upload =>
      if upload.negotiation.pending then
        some (s.update i { upload with negotiation := upload.negotiation.next })
      else none
  | .negotiationFails i => (s.uploads[i]?).bind fun upload =>
      if upload.negotiation.pending then some (s.finish i { upload with negotiation := .failed })
      else none
  | .timerFires i => (s.uploads[i]?).bind fun upload =>
      if upload.timerArmed then some (s.onTimer i upload) else none
  | .connectionStateChange i state => (s.uploads[i]?).bind fun upload =>
      if upload.connection.isSome then some (s.onConnectionStateChange i upload state) else none
  | .dataChannel i label => (s.uploads[i]?).bind fun upload =>
      if upload.connection.isSome then some (s.onDataChannel rules i upload label) else none
  | .requested i channel => (s.uploads[i]?).bind fun upload =>
      if upload.channels[channel]? = some .waitingForRequest then
        some (s.update i { upload with channels := upload.channels.set channel .readingSegment })
      else none
  | .segmentRead i channel found => (s.uploads[i]?).bind fun upload =>
      if upload.channels[channel]? = some .readingSegment then
        some (s.onSegmentRead rules i upload channel found)
      else none
  | .servingSettles i channel => (s.uploads[i]?).bind fun upload =>
      if upload.channels[channel]?.any (· ≠ .settled) then
        some (s.finish i { upload with channels := upload.channels.set channel .settled })
      else none
  | .stop => some s.stop

def system (rules : UploadRules) : TransitionSystem UploadSlots UploadEvent where
  init s := s = new rules
  step := step rules

/-! ## The accounting -/

/-- The number of the offers that are not finished. -/
def unfinished (uploads : List Upload) : ℕ := uploads.countP fun upload => !upload.finished

variable {rules : UploadRules} {s : UploadSlots} {i : ℕ} {upload upload' : Upload}

/-- The counter is the number of accepted and unfinished offers, within its bounds; every
finished offer was counted down once, and an unfinished one is finished by its timer at last. -/
structure Accounted (rules : UploadRules) (s : UploadSlots) : Prop where
  active_eq : s.activeUploadConnections = unfinished s.uploads
  nonneg : 0 ≤ s.activeUploadConnections
  le_max : s.activeUploadConnections ≤ rules.maxUploadConnections.val
  released : ∀ upload ∈ s.uploads, upload.releases = if upload.finished then 1 else 0
  expires : ∀ i upload, s.uploads[i]? = some upload → upload.finished = false →
    ∃ s', step rules s (.timerFires i) = some s' ∧
      ∃ upload', s'.uploads[i]? = some upload' ∧ upload'.finished = true

end UploadSlots

/-- What holds of each accepted offer between the events. -/
structure Upload.Sound (upload : Upload) : Prop where
  released : upload.releases = if upload.finished then 1 else 0
  armed : upload.finished = false → upload.timerArmed = true
  /-- Every end of an upload finishes it. -/
  ended : upload.negotiation = .failed ∨ upload.signalAborted = true ∨
    .settled ∈ upload.channels → upload.finished = true
  closed : upload.finished = true → ∀ connection ∈ upload.connection, connection = ⟨false, true⟩

namespace Upload.Sound

variable {upload : Upload}

theorem accepted : Upload.accepted.Sound where
  released := rfl
  armed _ := rfl
  ended := by
    rintro (hfailed | haborted | hsettled)
    · cases hfailed
    · cases haborted
    · cases hsettled
  closed hfinished := by cases hfinished

theorem refused : Upload.refused.Sound where
  released := rfl
  armed hopen := by cases hopen
  ended _ := rfl
  closed _ connection hconnection := by cases hconnection

theorem finish (hreleased : upload.releases = 0) : upload.finish.Sound where
  released := by
    show upload.releases + 1 = 1
    rw [hreleased]
  armed hfalse := by cases hfalse
  ended _ := rfl
  closed _ connection hconnection := by
    rcases Option.mem_map.mp hconnection with ⟨_, _, rfl⟩
    rfl

end Upload.Sound

namespace UploadSlots

variable {rules : UploadRules} {s : UploadSlots} {i : ℕ} {upload upload' : Upload}

/-- The invariant of every run. -/
structure Counted (rules : UploadRules) (s : UploadSlots) : Prop where
  active_eq : s.activeUploadConnections = unfinished s.uploads
  le_max : s.activeUploadConnections ≤ rules.maxUploadConnections.val
  sound : ∀ upload ∈ s.uploads, upload.Sound

/-- The number of the unfinished, after one of them has changed. -/
theorem unfinished_set (hi : s.uploads[i]? = some upload) :
    unfinished (s.uploads.set i upload') + (if upload.finished then 0 else 1)
      = unfinished s.uploads + (if upload'.finished then 0 else 1) := by
  obtain ⟨hlt, hget⟩ := List.getElem?_eq_some_iff.mp hi
  have hpos : upload.finished = false → 0 < s.uploads.countP fun upload => !upload.finished := by
    intro hopen
    refine List.countP_pos_iff.mpr ⟨upload, hget ▸ List.getElem_mem hlt, ?_⟩
    rw [hopen]
    rfl
  unfold unfinished
  rw [List.countP_set hlt, hget]
  cases hfinished : upload.finished with
  | true => cases upload'.finished <;> simp
  | false =>
      have := hpos hfinished
      cases upload'.finished <;> simp <;> omega

theorem unfinished_append (uploads : List Upload) (upload : Upload) :
    unfinished (uploads ++ [upload]) = unfinished uploads + (if upload.finished then 0 else 1) := by
  unfold unfinished
  rw [List.countP_append]
  cases hfinished : upload.finished <;> simp [hfinished]

namespace Counted

theorem mem_sound (h : Counted rules s) (hi : s.uploads[i]? = some upload) : upload.Sound :=
  h.sound upload (List.mem_of_getElem? hi)

/-- Every upload of the list with one exchanged. -/
theorem sound_set (h : Counted rules s) (hsound : upload'.Sound) :
    ∀ other ∈ s.uploads.set i upload', other.Sound := by
  intro other hmem
  rcases List.mem_or_eq_of_mem_set hmem with hmem | rfl
  · exact h.sound other hmem
  · exact hsound

theorem update (h : Counted rules s) (hi : s.uploads[i]? = some upload)
    (hfinished : upload'.finished = upload.finished) (hsound : upload'.Sound) :
    Counted rules (s.update i upload') where
  active_eq := by
    have hcount := @unfinished_set s i upload upload' hi
    rw [hfinished, Nat.add_right_cancel_iff] at hcount
    show s.activeUploadConnections = unfinished (s.uploads.set i upload')
    rw [h.active_eq, hcount]
  le_max := h.le_max
  sound := h.sound_set hsound

/-- **The counter goes down with the first `finish`** and stays with every later one. -/
theorem finish (h : Counted rules s) (hi : s.uploads[i]? = some upload)
    (hfinished : upload'.finished = upload.finished) (hreleases : upload'.releases = upload.releases)
    (hclosed : upload.finished = true →
      ∀ connection ∈ upload'.connection, connection = ⟨false, true⟩) :
    Counted rules (s.finish i upload') := by
  have hsound := h.mem_sound hi
  have hreleased := hsound.released
  unfold UploadSlots.finish
  split_ifs with hdone
  · have hdone' : upload.finished = true := hfinished ▸ hdone
    refine h.update hi hfinished ⟨?_, ?_, fun _ => hdone, ?_⟩
    · rw [hreleases, hreleased, hfinished]
    · intro hopen
      rw [hdone] at hopen
      cases hopen
    · intro _ connection hconnection
      exact hclosed hdone' connection hconnection
  · have hopen : upload'.finished = false := Bool.eq_false_iff.mpr hdone
    have hopen' : upload.finished = false := hfinished ▸ hopen
    rw [hopen', if_neg Bool.false_ne_true] at hreleased
    have hcount := @unfinished_set s i upload upload'.finish hi
    rw [hopen', if_neg Bool.false_ne_true, if_pos (show upload'.finish.finished = true from rfl)]
      at hcount
    refine ⟨?_, ?_, h.sound_set (.finish (hreleases.trans hreleased))⟩
    · have hactive := h.active_eq
      show s.activeUploadConnections - 1 = unfinished (s.uploads.set i upload'.finish)
      omega
    · exact le_trans (Int.sub_le_self _ Int.one_nonneg) h.le_max

theorem onTimer (h : Counted rules s) (hi : s.uploads[i]? = some upload) :
    Counted rules (s.onTimer i upload) := by
  have hsound := h.mem_sound hi
  unfold UploadSlots.onTimer
  dsimp only
  split_ifs with haborted
  · have hdone : upload.finished = true := hsound.ended (Or.inr (Or.inl haborted))
    refine h.update hi rfl ⟨hsound.released, ?_, fun _ => hdone, hsound.closed⟩
    intro hopen
    cases hdone.symm.trans hopen
  · exact h.finish hi rfl rfl hsound.closed

theorem onConnectionStateChange (h : Counted rules s) (hi : s.uploads[i]? = some upload)
    (state : RtcConnectionState) : Counted rules (s.onConnectionStateChange i upload state) := by
  have hsound := h.mem_sound hi
  cases state with
  | failed => exact h.finish hi rfl rfl hsound.closed
  | closed =>
      refine h.finish hi rfl rfl fun hdone connection hconnection => ?_
      rcases Option.mem_map.mp hconnection with ⟨before, hbefore, rfl⟩
      rw [hsound.closed hdone before hbefore]
  | new => exact h
  | connecting => exact h
  | connected => exact h
  | disconnected => exact h

/-- A change of the channels that settles none. -/
theorem update_channels (h : Counted rules s) (hi : s.uploads[i]? = some upload)
    {channels : List Serving} {timerArmed : Bool}
    (hsettled : .settled ∈ channels → .settled ∈ upload.channels)
    (harmed : upload.timerArmed = true → timerArmed = true) :
    Counted rules (s.update i { upload with channels := channels, timerArmed := timerArmed }) := by
  have hsound := h.mem_sound hi
  refine h.update hi rfl ⟨hsound.released, fun hopen => harmed (hsound.armed hopen), ?_,
    hsound.closed⟩
  rintro (hfailed | haborted | hchannel)
  · exact hsound.ended (Or.inl hfailed)
  · exact hsound.ended (Or.inr (Or.inl haborted))
  · exact hsound.ended (Or.inr (Or.inr (hsettled hchannel)))

theorem onDataChannel (h : Counted rules s) (hi : s.uploads[i]? = some upload) (label : String) :
    Counted rules (s.onDataChannel rules i upload label) := by
  have hsound := h.mem_sound hi
  unfold UploadSlots.onDataChannel
  split_ifs
  · exact h.finish hi rfl rfl hsound.closed
  · exact h
  · apply h.update_channels hi
    · intro hmem
      rcases List.mem_append.mp hmem with hmem | hmem
      · exact hmem
      · cases List.mem_singleton.mp hmem
    · exact id

/-- A channel that goes on is not a settled one. -/
theorem settled_of_mem_set {channels : List Serving} {channel : ℕ} {serving : Serving}
    (hserving : serving ≠ .settled) (hmem : .settled ∈ channels.set channel serving) :
    .settled ∈ channels := by
  rcases List.mem_or_eq_of_mem_set hmem with hmem | heq
  · exact hmem
  · exact absurd heq.symm hserving

theorem acceptOffer (h : Counted rules s) (created : Bool) :
    Counted rules (s.acceptOffer rules created) := by
  have hsound : ∀ new : Upload, new.Sound → ∀ upload ∈ s.uploads ++ [new], upload.Sound := by
    intro new hnew upload hmem
    rcases List.mem_append.mp hmem with hmem | hmem
    · exact h.sound upload hmem
    · rw [List.mem_singleton.mp hmem]
      exact hnew
  unfold UploadSlots.acceptOffer
  split_ifs with hfull hcreated
  · exact h
  · refine ⟨?_, Int.add_one_le_of_lt (not_le.mp hfull), hsound _ .accepted⟩
    show s.activeUploadConnections + 1 = unfinished (s.uploads ++ [.accepted])
    rw [unfinished_append, h.active_eq]
    rfl
  · refine ⟨?_, ?_, hsound _ .refused⟩
    · show s.activeUploadConnections + 1 - 1 = unfinished (s.uploads ++ [.refused])
      rw [unfinished_append, h.active_eq, Int.add_sub_cancel]
      rfl
    · show s.activeUploadConnections + 1 - 1 ≤ _
      rw [Int.add_sub_cancel]
      exact h.le_max

theorem stop (h : Counted rules s) : Counted rules s.stop where
  active_eq := by
    have hcount : unfinished s.stop.uploads = unfinished s.uploads := by
      unfold unfinished
      exact List.countP_map
    rw [hcount]
    exact h.active_eq
  le_max := h.le_max
  sound upload hmem := by
    rcases List.mem_map.mp hmem with ⟨before, hbefore, rfl⟩
    have hsound := h.sound before hbefore
    refine ⟨hsound.released, hsound.armed, hsound.ended, fun hdone connection hconnection => ?_⟩
    rcases Option.mem_map.mp hconnection with ⟨old, hold, rfl⟩
    rw [hsound.closed hdone old hold]
    rfl

/-- Case by case, every event keeps the count. -/
theorem step (h : Counted rules s) {event : UploadEvent} {s' : UploadSlots}
    (hstep : UploadSlots.step rules s event = some s') : Counted rules s' := by
  cases event with
  | start =>
      simp only [UploadSlots.step] at hstep
      split_ifs at hstep
      obtain rfl := Option.some.inj hstep
      exact ⟨h.active_eq, h.le_max, h.sound⟩
  | offer created =>
      simp only [UploadSlots.step] at hstep
      split_ifs at hstep
      obtain rfl := Option.some.inj hstep
      exact h.acceptOffer created
  | negotiated i =>
      rcases Option.bind_eq_some_iff.mp hstep with ⟨upload, hi, hstep⟩
      split_ifs at hstep with hpending
      obtain rfl := Option.some.inj hstep
      have hsound := h.mem_sound hi
      refine h.update hi rfl ⟨hsound.released, hsound.armed, ?_, hsound.closed⟩
      rintro (hfailed | hended)
      · exact absurd hfailed (Negotiation.next_ne_failed hpending)
      · exact hsound.ended (Or.inr hended)
  | negotiationFails i =>
      rcases Option.bind_eq_some_iff.mp hstep with ⟨upload, hi, hstep⟩
      split_ifs at hstep
      obtain rfl := Option.some.inj hstep
      exact h.finish hi rfl rfl (h.mem_sound hi).closed
  | timerFires i =>
      rcases Option.bind_eq_some_iff.mp hstep with ⟨upload, hi, hstep⟩
      split_ifs at hstep
      obtain rfl := Option.some.inj hstep
      exact h.onTimer hi
  | connectionStateChange i state =>
      rcases Option.bind_eq_some_iff.mp hstep with ⟨upload, hi, hstep⟩
      split_ifs at hstep
      obtain rfl := Option.some.inj hstep
      exact h.onConnectionStateChange hi state
  | dataChannel i label =>
      rcases Option.bind_eq_some_iff.mp hstep with ⟨upload, hi, hstep⟩
      split_ifs at hstep
      obtain rfl := Option.some.inj hstep
      exact h.onDataChannel hi label
  | requested i channel =>
      rcases Option.bind_eq_some_iff.mp hstep with ⟨upload, hi, hstep⟩
      split_ifs at hstep
      obtain rfl := Option.some.inj hstep
      exact h.update_channels hi (settled_of_mem_set (by decide)) id
  | segmentRead i channel found =>
      rcases Option.bind_eq_some_iff.mp hstep with ⟨upload, hi, hstep⟩
      split_ifs at hstep
      obtain rfl := Option.some.inj hstep
      apply h.update_channels hi (settled_of_mem_set (by decide))
      intro harmed
      rw [harmed, Bool.true_or]
  | servingSettles i channel =>
      rcases Option.bind_eq_some_iff.mp hstep with ⟨upload, hi, hstep⟩
      split_ifs at hstep
      obtain rfl := Option.some.inj hstep
      exact h.finish hi rfl rfl (h.mem_sound hi).closed
  | stop =>
      obtain rfl := Option.some.inj hstep
      exact h.stop

/-- The timer of an unfinished upload is armed, and its first firing finishes the upload. -/
theorem expires (h : Counted rules s) (hi : s.uploads[i]? = some upload)
    (hopen : upload.finished = false) :
    ∃ s', UploadSlots.step rules s (.timerFires i) = some s' ∧
      ∃ upload', s'.uploads[i]? = some upload' ∧ upload'.finished = true := by
  have hsound := h.mem_sound hi
  have haborted : upload.signalAborted = false := by
    rw [Bool.eq_false_iff]
    intro haborted
    cases hopen.symm.trans (hsound.ended (Or.inr (Or.inl haborted)))
  have hfires : s.onTimer i upload = { s.update i (Upload.finish { upload with
      timerArmed := false, signalAborted := true }) with
      activeUploadConnections := s.activeUploadConnections - 1 } := by
    simp only [UploadSlots.onTimer, UploadSlots.finish, haborted, hopen, Bool.false_eq_true,
      if_false]
  refine ⟨s.onTimer i upload, ?_, Upload.finish { upload with
    timerArmed := false, signalAborted := true }, ?_, rfl⟩
  · show (s.uploads[i]?).bind _ = _
    rw [hi, Option.bind_some, if_pos (hsound.armed hopen)]
  · rw [hfires]
    exact List.getElem?_set_self (List.getElem?_eq_some_iff.mp hi).1

theorem accounted (h : Counted rules s) : Accounted rules s where
  active_eq := h.active_eq
  nonneg := by
    rw [h.active_eq]
    exact Int.natCast_nonneg _
  le_max := h.le_max
  released upload hmem := (h.sound upload hmem).released
  expires _ _ hi hopen := h.expires hi hopen

end Counted

/-- The accounting holds on both sides, under any rules. -/
theorem Reachable.accounted (hr : (system rules).Reachable (fun _ _ => True) s) :
    Accounted rules s := by
  have hcounted : Counted rules s := by
    refine hr.invariant (Counted rules) ?_ ?_
    · rintro s rfl
      exact ⟨rfl, Int.natCast_nonneg _, fun _ hmem => absurd hmem List.not_mem_nil⟩
    · intro s event s' h _ hstep
      exact h.step hstep
  exact hcounted.accounted

end UploadSlots

/-! ## The two sides -/

namespace WebRtcTransport

def DEFAULT_MAX_UPLOAD_CONNECTIONS : ℕ := 3

def uploadRules (maxUploadConnections : {n : ℕ // 0 < n}) : UploadRules where
  maxUploadConnections := maxUploadConnections
  unknownChannelFinishes := false
  extendsTimeout := false
  restarts := true

end WebRtcTransport

namespace BrowserWebRtcPeer

def uploadRules (maxUploadConnections : {n : ℕ // 0 < n}) : UploadRules where
  maxUploadConnections := maxUploadConnections
  unknownChannelFinishes := true
  extendsTimeout := true
  restarts := false

end BrowserWebRtcPeer

namespace UploadSlots

/-- **Upload slots are accounted for**, in the Node transport and in the browser peer. -/
theorem uploads_accounted (maxUploadConnections : {n : ℕ // 0 < n}) (s : UploadSlots) :
    ((system (WebRtcTransport.uploadRules maxUploadConnections)).Reachable (fun _ _ => True) s →
      Accounted (WebRtcTransport.uploadRules maxUploadConnections) s) ∧
    ((system (BrowserWebRtcPeer.uploadRules maxUploadConnections)).Reachable (fun _ _ => True) s →
      Accounted (BrowserWebRtcPeer.uploadRules maxUploadConnections) s) :=
  ⟨Reachable.accounted, Reachable.accounted⟩

/-- One slot: an offer is refused while the first one is answered, the end of the first one is
heard twice, a connection cannot be created, and a last one times out. -/
theorem uploads_accounted_one_slot :
    Accounted (WebRtcTransport.uploadRules ⟨1, Nat.one_pos⟩) ⟨0,
        [⟨some ⟨false, true⟩, .failed, [], false, false, true, 1⟩, .refused,
          ⟨some ⟨false, true⟩, .settingRemoteDescription, [], true, false, true, 1⟩], false⟩ ∧
      Accounted (BrowserWebRtcPeer.uploadRules ⟨1, Nat.one_pos⟩) ⟨1, [.accepted], false⟩ := by
  constructor
  · have hrun : (system (WebRtcTransport.uploadRules ⟨1, Nat.one_pos⟩)).run
        (new (WebRtcTransport.uploadRules ⟨1, Nat.one_pos⟩))
        [.start, .offer true, .offer true, .negotiationFails 0, .connectionStateChange 0 .closed,
          .offer false, .offer true, .timerFires 2] = some ⟨0,
        [⟨some ⟨false, true⟩, .failed, [], false, false, true, 1⟩, .refused,
          ⟨some ⟨false, true⟩, .settingRemoteDescription, [], true, false, true, 1⟩], false⟩ := rfl
    exact (uploads_accounted _ _).1 (TransitionSystem.reachable_of_run rfl hrun)
  · have hrun : (system (BrowserWebRtcPeer.uploadRules ⟨1, Nat.one_pos⟩)).run
        (new (BrowserWebRtcPeer.uploadRules ⟨1, Nat.one_pos⟩)) [.offer true, .offer true] =
          some ⟨1, [.accepted], false⟩ := rfl
    exact (uploads_accounted _ _).2 (TransitionSystem.reachable_of_run rfl hrun)

end UploadSlots
end OpenStreamGrid
