import OpenStreamGrid.Tracker.FlushTrace
import OpenStreamGrid.Tracker.PlainMessages
import OpenStreamGrid.Tracker.SubscriptionIndex

/-!
# A broadcast ID that is used again

Everything the hub keeps of a broadcast is filed under its ID, and a batch timer or the
slices of a flush may still be to come when the broadcast is removed and another takes its
ID. What such a run sends of the broadcast was published after the removal: the pending
changes go with it, and a flush stops at subscribers that are not its own.
-/

namespace OpenStreamGrid

/-- What an accepted request or message makes known. -/
inductive Publication where
  | joined (timestamp : Timestamp) (request : PeerJoinRequest)
  | reported (peerId : PeerId) (effect : Overwrite SegmentId)

namespace Publication

variable {published later : List Publication} {q : PeerId} {o o' : Overwrite SegmentId}

/-- Everything the overwrite says of a peer's segments was reported. -/
def Covers (published : List Publication) (q : PeerId) (o : Overwrite SegmentId) : Prop :=
  ∀ x v, o x = some v → ∃ effect, .reported q effect ∈ published ∧ effect x = some v

/-- A peer of this ID joined. -/
def HasJoined (published : List Publication) (q : PeerId) : Prop :=
  ∃ t request, .joined t request ∈ published ∧ request.id = q

/-- The record tells nothing but what was published. -/
structure Knows (published : List Publication) (peer : Peer) : Prop where
  member : ∃ t request, .joined t request ∈ published ∧ peer.id = request.id ∧
    peer.address = request.address ∧ peer.metadata = request.metadata
  joinedAt : ∃ request, .joined peer.joinedAt request ∈ published ∧ peer.id = request.id
  segments : ∀ x ∈ peer.segments, ∃ effect, .reported peer.id effect ∈ published ∧
    effect x = some true

/-- The message tells nothing but what was published. -/
def Accounts (published : List Publication) : WsServerMessage → Prop
  | .peerJoined _ peer => Knows published peer
  | .peerList _ peers => ∀ peer ∈ peers, Knows published peer
  | .peerLeft _ q => HasJoined published q
  | .segmentAvailable b q segments replace =>
      .reported q (InventoryMessage.segmentAvailable b q segments replace).effect ∈ published
  | .segmentInventoryDelta b q added removed =>
      .reported q (InventoryMessage.segmentInventoryDelta b q added removed).effect ∈ published
  | .segmentInventoryBatch _ updates =>
      ∀ u ∈ updates, Covers published u.peerId (u.effect u.peerId)

theorem covers_keep (published : List Publication) (q : PeerId) : Covers published q .keep :=
  fun _ _ hx => nomatch hx

theorem Covers.mono (hsub : published ⊆ later) (h : Covers published q o) : Covers later q o := by
  intro x v hx
  obtain ⟨effect, hmem, heffect⟩ := h x v hx
  exact ⟨effect, hsub hmem, heffect⟩

theorem Covers.andThen (h : Covers published q o) (h' : Covers published q o') :
    Covers published q (o.andThen o') := by
  intro x v hx
  cases hlast : o' x with
  | some v' =>
      obtain rfl : v' = v := by simpa [Overwrite.andThen, hlast] using hx
      exact h' x v' hlast
  | none => exact h x v (by simpa [Overwrite.andThen, hlast] using hx)

theorem covers_of_reported {effect : Overwrite SegmentId}
    (hmem : .reported q effect ∈ published) : Covers published q effect :=
  fun _ _ hx => ⟨effect, hmem, hx⟩

theorem HasJoined.mono (hsub : published ⊆ later) (h : HasJoined published q) :
    HasJoined later q := by
  obtain ⟨t, request, hmem, hid⟩ := h
  exact ⟨t, request, hsub hmem, hid⟩

theorem Knows.mono {peer : Peer} (hsub : published ⊆ later) (h : Knows published peer) :
    Knows later peer := by
  obtain ⟨t, request, hmem, hsame⟩ := h.member
  obtain ⟨request', hmem', hid⟩ := h.joinedAt
  refine ⟨⟨t, request, hsub hmem, hsame⟩, ⟨request', hsub hmem', hid⟩, fun x hx => ?_⟩
  obtain ⟨effect, hmem, heffect⟩ := h.segments x hx
  exact ⟨effect, hsub hmem, heffect⟩

theorem Knows.hasJoined {peer : Peer} (h : Knows published peer) : HasJoined published peer.id := by
  obtain ⟨t, request, hmem, hid, -⟩ := h.member
  exact ⟨t, request, hmem, hid.symm⟩

/-- The record of a peer that stays, with segments of its own or reported ones. -/
theorem Knows.revise {old new : Peer} (h : Knows published old)
    (hmember : TrackerWebSocketHub.SameMember new old)
    (hsegments : ∀ x ∈ new.segments, x ∈ old.segments ∨
      ∃ effect, .reported new.id effect ∈ published ∧ effect x = some true) :
    Knows published new := by
  obtain ⟨t, request, hmem, hid, haddress, hmetadata⟩ := h.member
  obtain ⟨request', hmem', hid'⟩ := h.joinedAt
  refine ⟨⟨t, request, hmem, hmember.id.trans hid, hmember.address.trans haddress,
    hmember.metadata.trans hmetadata⟩, ⟨request', ?_, hmember.id.trans hid'⟩, fun x hx => ?_⟩
  · rw [hmember.joinedAt]
    exact hmem'
  · rcases hsegments x hx with hold | hnew
    · rw [hmember.id]
      exact h.segments x hold
    · exact hnew

/-- Whoever joins keeps the segments it had, if it was there. -/
theorem knows_joinedPeer {t : Timestamp} {request : PeerJoinRequest} {existing : Option Peer}
    (hmem : .joined t request ∈ published)
    (hexisting : ∀ old ∈ existing, Knows published old ∧ old.id = request.id) :
    Knows published (joinedPeer request existing t) := by
  have hmember : ∃ t' request', .joined t' request' ∈ published ∧ request.id = request'.id ∧
      request.address = request'.address ∧ request.metadata = request'.metadata :=
    ⟨t, request, hmem, rfl, rfl, rfl⟩
  cases existing with
  | none => exact ⟨hmember, ⟨request, hmem, rfl⟩, fun x hx => absurd hx List.not_mem_nil⟩
  | some old =>
      obtain ⟨hknown, hid⟩ := hexisting old rfl
      obtain ⟨request', hmem', hid'⟩ := hknown.joinedAt
      refine ⟨hmember, ⟨request', hmem', hid.symm.trans hid'⟩, fun x hx => ?_⟩
      obtain ⟨effect, hreported, heffect⟩ := hknown.segments x hx
      exact ⟨effect, hid ▸ hreported, heffect⟩

end Publication

open Publication

namespace TrackerWebSocketHub

variable {h h' : TrackerWebSocketHub} {s : SocketId} {b : BroadcastId} {p q : PeerId}

/-! ## What is published -/

/-- What an event publishes of a broadcast; what is refused publishes nothing. -/
def publishes (h : TrackerWebSocketHub) (b : BroadcastId) : TrackerEvent → List Publication
  | .hub (.joinPeer t b' request options) =>
      if b' = b ∧ (h.store.joinPeerDetailed t b' request options).isOk = true then
        [.joined t request]
      else []
  | .hub (.received s admitted t (.reportSegments b' q message)) =>
      if b' = b ∧ (h.handleMessage s admitted t (.reportSegments b' q message)).isOk = true then
        [.reported q message.effect]
      else []
  | .postSegments admitted t b' q report =>
      match TrackerServer.postSegments h.store admitted t b' q report with
      | .error _ => []
      | .ok (_, segments) =>
          if b' = b then [.reported q (TrackerServer.segmentsAvailable b' q segments).effect]
          else []
  | _ => []

/-- What a run publishes. -/
def publishedIn (b : BroadcastId) : TrackerWebSocketHub → List TrackerEvent → List Publication
  | _, [] => []
  | h, e :: es =>
      h.publishes b e ++
        match lifetime.step h e with
        | none => []
        | some h' => publishedIn b h' es

theorem publishedIn_append {es es' : List TrackerEvent} : ∀ {h h' : TrackerWebSocketHub},
    lifetime.run h es = some h' →
      publishedIn b h (es ++ es') = publishedIn b h es ++ publishedIn b h' es' := by
  induction es with
  | nil =>
      intro h h' hrun
      obtain rfl := Option.some.inj hrun
      rfl
  | cons e es ih =>
      intro h h' hrun
      obtain ⟨next, hstep, hrest⟩ := (lifetime.run_cons_eq_some).mp hrun
      rw [List.cons_append, publishedIn, publishedIn, hstep]
      dsimp only
      rw [ih hrest, List.append_assoc]

/-! ## The invariant -/

/-- What waits, what is being sent and what is stored of `b` was published. -/
structure Isolated (b : BroadcastId) (published : List Publication) (h : TrackerWebSocketHub) :
    Prop extends Sourced (fun b' q o => b' = b → Covers published q o) h where
  stored : ∀ q peer, h.store.getPeer b q = some peer → Knows published peer

variable {published : List Publication}

theorem mem_publishes_join {t : Timestamp} {request : PeerJoinRequest} {options : JoinPeerOptions}
    {result : TrackerStore × Peer × Bool}
    (hjoin : h.store.joinPeerDetailed t b request options = .ok result) :
    .joined t request ∈ h.publishes b (.hub (.joinPeer t b request options)) := by
  dsimp only [publishes]
  rw [if_pos ⟨rfl, by rw [hjoin]; rfl⟩]
  exact List.mem_singleton_self _

theorem mem_publishes_report {admitted : Bool} {t : Timestamp} {message : ReportSegmentsMessage}
    (haccepted : (h.handleMessage s admitted t (.reportSegments b q message)).isOk = true) :
    .reported q message.effect ∈
      h.publishes b (.hub (.received s admitted t (.reportSegments b q message))) := by
  dsimp only [publishes]
  rw [if_pos ⟨rfl, haccepted⟩]
  exact List.mem_singleton_self _

theorem mem_merged {message : ReportSegmentsMessage} {old : List SegmentId} {max : ℕ}
    {x : SegmentId} (hx : x ∈ limitInventory (message.merged old) max) :
    x ∈ old ∨ message.effect x = some true := by
  have hmerged : x ∈ message.effect.apply {y | y ∈ old} := by
    rw [message.apply_effect]
    exact (limitInventory_sublist _ _).subset hx
  cases heffect : message.effect x with
  | none => exact Or.inl ((Overwrite.mem_apply_of_none heffect).mp hmerged)
  | some v =>
      obtain rfl := (Overwrite.mem_apply_of_some heffect).mp hmerged
      exact Or.inr rfl

theorem Isolated.stored_step (h₀ : h.Isolated b published) {e : HubEvent}
    (hstep : h.step e = some h') {peer : Peer} (hpeer : h'.store.getPeer b q = some peer) :
    Knows (published ++ h.publishes b (.hub e)) peer := by
  have hold : ∀ q peer, h.store.getPeer b q = some peer →
      Knows (published ++ h.publishes b (.hub e)) peer :=
    fun q peer hpeer => (h₀.stored q peer hpeer).mono (List.subset_append_left _ _)
  have hstores := step_stores h₀.toSound hstep
  generalize h'.store = store at hstores hpeer
  cases hstores with
  | kept _ hstore => exact hold q peer (hstore b q peer hpeer)
  | @joined t b' request options _ joined already hjoin =>
      obtain ⟨hget, -⟩ := getPeer_joined hjoin
      rw [hget] at hpeer
      split_ifs at hpeer with hbq
      · obtain ⟨rfl, rfl⟩ := hbq
        obtain rfl := Option.some.inj hpeer
        obtain ⟨state, hstate, -, rfl, -⟩ := TrackerStore.joinPeerDetailed_ok.mp hjoin
        have hexisting : h.store.getPeer b request.id =
            (state.peers.get? request.id).map PeerState.peer := by
          rw [TrackerStore.getPeer, TrackerStore.peerState?, hstate, Option.bind_some]
        refine knows_joinedPeer (List.mem_append_right _ (mem_publishes_join hjoin)) fun old h => ?_
        have hfound := hexisting.trans h
        exact ⟨hold _ old hfound, h₀.keyed b _ old hfound⟩
      · exact hold q peer hpeer
  | @revised _ b' p store old new hfound hstore hmember hsegments =>
      rw [hstore] at hpeer
      split_ifs at hpeer with hbq
      · obtain ⟨rfl, rfl⟩ := hbq
        obtain rfl := Option.some.inj hpeer
        exact (hold _ old hfound).revise hmember fun x hx => Or.inl (hsegments ▸ hx)
      · exact hold q peer hpeer
  | @reported s admitted t b' p message store old new haccepted hfound hstore hmember hsegments =>
      rw [hstore] at hpeer
      split_ifs at hpeer with hbq
      · obtain ⟨rfl, rfl⟩ := hbq
        obtain rfl := Option.some.inj hpeer
        refine (hold _ old hfound).revise hmember fun x hx => ?_
        rw [hsegments] at hx
        refine (mem_merged hx).imp_right fun heffect => ⟨message.effect, ?_, heffect⟩
        rw [hmember.id, h₀.keyed b q old hfound]
        exact List.mem_append_right _ (mem_publishes_report haccepted)
      · exact hold q peer hpeer

theorem Isolated.hub_step (h₀ : h.Isolated b published) {e : HubEvent}
    (hstep : h.step e = some h') : h'.Isolated b (published ++ h.publishes b (.hub e)) := by
  have hsub : published ⊆ published ++ h.publishes b (.hub e) := List.subset_append_left _ _
  refine ⟨h₀.toSourced.step (fun _ q _ => covers_keep _ q)
    (fun _ _ _ hcovers hb => (hcovers hb).mono hsub) ?_ hstep, fun _ _ => h₀.stored_step hstep⟩
  rintro s admitted t b' q message rfl haccepted o hcovers rfl
  refine ((hcovers rfl).mono hsub).andThen (covers_of_reported ?_)
  exact List.mem_append_right _ (mem_publishes_report haccepted)

theorem mem_publishes_post {admitted : Bool} {t : Timestamp} {report : SegmentPossessionReport}
    {store : TrackerStore} {segments : List SegmentId}
    (hpost : TrackerServer.postSegments h.store admitted t b p report = .ok (store, segments)) :
    .reported p (TrackerServer.segmentsAvailable b p segments).effect ∈
      h.publishes b (.postSegments admitted t b p report) := by
  dsimp only [publishes]
  rw [hpost]
  dsimp only
  rw [if_pos rfl]
  exact List.mem_singleton_self _

theorem Isolated.post (h₀ : h.Isolated b published) {admitted : Bool} {t : Timestamp}
    {b' : BroadcastId} {report : SegmentPossessionReport} {store : TrackerStore}
    {segments : List SegmentId}
    (hpost : TrackerServer.postSegments h.store admitted t b' p report = .ok (store, segments)) :
    Isolated b (published ++ h.publishes b (.postSegments admitted t b' p report))
      ({ h with store := store }.publishInventory
        (TrackerServer.segmentsAvailable b' p segments)) := by
  have hsub : published ⊆ published ++ h.publishes b (.postSegments admitted t b' p report) :=
    List.subset_append_left _ _
  obtain ⟨peer, hreport⟩ := postSegments_ok hpost
  obtain ⟨old, hold, -, hupdated⟩ := TrackerStore.modifyPeer_updated hreport
  have hsourced := h₀.toSourced.withStore (h₀.toSteady.withRecord hold hupdated rfl)
  refine ⟨hsourced.publishInventory (fun _ _ _ hcovers hb => (hcovers hb).mono hsub) ?_,
    fun q found hfound => ?_⟩
  · rintro o hcovers rfl
    refine ((hcovers rfl).mono hsub).andThen (covers_of_reported ?_)
    exact List.mem_append_right _ (mem_publishes_post hpost)
  · rw [(publishInventory_untouched ..).store] at hfound
    have hget := hupdated.getPeer b q
    rw [hfound] at hget
    split_ifs at hget with hbq
    · obtain ⟨rfl, rfl⟩ := hbq
      obtain rfl := Option.some.inj hget
      have hstored : h.store.getPeer b q = some old.peer := by
        rw [TrackerStore.getPeer, hold, Option.map_some]
      refine ((h₀.stored q _ hstored).mono hsub).revise ⟨rfl, rfl, rfl, rfl⟩ fun x hx => ?_
      have hmerged := (limitInventory_sublist _ _).subset hx
      rcases mem_mergedReport.mp hmerged with ⟨-, hx⟩ | hx
      · exact Or.inl hx
      · have hid : old.peer.id = q := h₀.keyed b q _ hstored
        refine Or.inr ⟨(TrackerServer.segmentsAvailable b q segments).effect,
          List.mem_append_right _ ?_, congrArg some (decide_eq_true hx)⟩
        exact hid.symm ▸ mem_publishes_post hpost
    · exact (h₀.stored q found hget.symm).mono hsub

theorem Isolated.reportFailure (h₀ : h.Isolated b published) {now : Timestamp} {b' : BroadcastId}
    {report : PeerFailureReport} :
    (h.withStore (h.store.reportPeerFailure now b' p report)).Isolated b published := by
  unfold withStore
  cases hreport : h.store.reportPeerFailure now b' p report with
  | error _ => exact h₀
  | ok result =>
      have heff : StepEffect h (.closing 0) { h with store := result.1 } :=
        .stored _ (reportPeerFailure_inventories hreport)
      refine ⟨h₀.toSourced.withStore (heff.steady h₀.toSteady), fun q peer hpeer => ?_⟩
      rcases reportPeerFailure_ok hreport with hsame | ⟨old, new, hold, hmember, hsegments, hstore⟩
      · exact h₀.stored q peer ((hsame b q).symm.trans hpeer)
      · have hget := (hstore b q).symm.trans hpeer
        split_ifs at hget with hbq
        · obtain ⟨rfl, rfl⟩ := hbq
          obtain rfl := Option.some.inj hget
          exact (h₀.stored q old hold).revise hmember fun x hx => Or.inl (hsegments ▸ hx)
        · exact h₀.stored q peer hget

/-- **One event**: what it publishes is added, and nothing else. -/
theorem Isolated.step (h₀ : h.Isolated b published) {e : TrackerEvent}
    (hstep : lifetime.step h e = some h') : h'.Isolated b (published ++ h.publishes b e) := by
  cases e with
  | hub e => exact h₀.hub_step hstep
  | postSegments admitted t b' p report =>
      dsimp only [lifetime] at hstep
      cases hpost : TrackerServer.postSegments h.store admitted t b' p report with
      | error _ =>
          rw [hpost] at hstep
          obtain rfl := Option.some.inj hstep
          dsimp only [publishes]
          rw [hpost, List.append_nil]
          exact h₀
      | ok result =>
          rw [hpost] at hstep
          obtain rfl := Option.some.inj hstep
          exact h₀.post hpost
  | reportFailure now b' p report =>
      obtain rfl := Option.some.inj hstep
      rw [show h.publishes b (.reportFailure now b' p report) = [] from rfl, List.append_nil]
      exact h₀.reportFailure
  | restart perTurn size random =>
      obtain rfl := Option.some.inj hstep
      rw [show h.publishes b (.restart perTurn size random) = [] from rfl, List.append_nil]
      exact ⟨sourced_new (fun _ q _ => covers_keep _ q) perTurn size random h₀.keyed, h₀.stored⟩

theorem Isolated.run {es : List TrackerEvent} : ∀ {published : List Publication}
    {h h' : TrackerWebSocketHub}, h.Isolated b published → lifetime.run h es = some h' →
      h'.Isolated b (published ++ publishedIn b h es) := by
  induction es with
  | nil =>
      intro published h h' h₀ hrun
      obtain rfl := Option.some.inj hrun
      rw [publishedIn, List.append_nil]
      exact h₀
  | cons e es ih =>
      intro published h h' h₀ hrun
      obtain ⟨next, hstep, hrest⟩ := (lifetime.run_cons_eq_some).mp hrun
      have hnext := ih (h₀.step hstep) hrest
      rw [publishedIn, hstep]
      rwa [List.append_assoc] at hnext

/-! ## What is sent -/

/-- Everything the message says of the broadcast was published. -/
def Told (b : BroadcastId) (published : List Publication) (m : WsServerMessage) : Prop :=
  m.broadcastId = b → Accounts published m

/-- What an event other than a flush leads to was published, or is published with it. -/
theorem Isolated.told (h₀ : h.Isolated b published) (hnext : h'.Isolated b published)
    {m : WsServerMessage} {e : HubEvent} (hm : Tells h h' e m)
    (hreport : ∀ s admitted t b' q message, e = .received s admitted t (.reportSegments b' q message) →
      b' = b → .reported q message.effect ∈ published) : Told b published m := by
  have hjoined : ∀ q, q ∈ h.stored b ∨ q ∈ h'.stored b → HasJoined published q := by
    rintro q (hq | hq)
    · obtain ⟨peer, hpeer⟩ := Option.isSome_iff_exists.mp hq
      exact h₀.keyed b q peer hpeer ▸ (h₀.stored q peer hpeer).hasJoined
    · obtain ⟨peer, hpeer⟩ := Option.isSome_iff_exists.mp hq
      exact hnext.keyed b q peer hpeer ▸ (hnext.stored q peer hpeer).hasJoined
  cases hm with
  | membership e hm =>
      cases m with
      | peerJoined b' peer =>
          rintro rfl
          exact hnext.stored peer.id peer hm
      | peerList b' peers =>
          rintro rfl peer hpeer
          exact hnext.stored peer.id peer (hm peer hpeer)
      | peerLeft b' q =>
          rintro rfl
          exact hjoined q hm
      | segmentAvailable | segmentInventoryDelta | segmentInventoryBatch => exact hm.elim
  | @report s admitted t b' q message m hb hq heffect =>
      intro hbroadcast
      have hmem : .reported m.peerId m.effect ∈ published := by
        rw [hq, heffect]
        refine hreport s admitted t b' q message rfl (hb.symm.trans ?_)
        cases m <;> exact hbroadcast
      cases m <;> exact hmem

theorem Isolated.hub_sends (h₀ : h.Isolated b published) {e : HubEvent}
    (hstep : h.step e = some h') :
    Sends (Told b (published ++ h.publishes b (.hub e))) h h' := by
  have hsub : published ⊆ published ++ h.publishes b (.hub e) := List.subset_append_left _ _
  have hnext := h₀.hub_step hstep
  cases hflushes : e.flushes with
  | true =>
      refine h₀.sends (fun b' batch hbatch => ?_) (step_flushes hflushes hstep)
      intro hb u hu
      exact (hbatch u hu hb).mono hsub
  | false =>
      have hlater : h.Isolated b (published ++ h.publishes b (.hub e)) :=
        ⟨h₀.toSourced.mono fun _ _ _ hcovers hb => (hcovers hb).mono hsub,
          fun q peer hpeer => (h₀.stored q peer hpeer).mono hsub⟩
      have hsends := (step_handles h₀.keyed hflushes hstep).sends h₀.toSteady
      -- a report that is refused only closes its socket
      by_cases hrefused : ∃ s admitted t b' q message,
          e = .received s admitted t (.reportSegments b' q message) ∧
            (h.handleMessage s admitted t (.reportSegments b' q message)).isOk = false
      · obtain ⟨s, admitted, t, b', q, message, rfl, hfalse⟩ := hrefused
        dsimp only [TrackerWebSocketHub.step] at hstep
        split_ifs at hstep
        cases hmessage : h.handleMessage s admitted t (.reportSegments b' q message) with
        | error _ =>
            rw [hmessage] at hstep
            obtain rfl := Option.some.inj hstep
            exact sends_close h s
        | ok _ =>
            rw [hmessage] at hfalse
            cases hfalse
      · refine hsends.mono fun m hm => hlater.told hnext hm ?_
        rintro s admitted t b' q message rfl rfl
        refine List.mem_append_right _ (mem_publishes_report ?_)
        by_contra hnot
        exact hrefused ⟨s, admitted, t, b', q, message, rfl, Bool.not_eq_true _ ▸ hnot⟩

/-- What was added to the logs. -/
theorem Sends.sentTo {P : WsServerMessage → Prop} (hh : Sends P h h') {socket : Socket}
    (hget : h'.sockets.get? s = some socket) :
    ∃ sent, socket.sent = h.sentTo s ++ sent ∧ ∀ m ∈ sent, P m := by
  unfold TrackerWebSocketHub.sentTo
  cases hold : h.sockets.get? s with
  | none => exact ⟨socket.sent, rfl, hh.connected s socket hget hold⟩
  | some old =>
      obtain ⟨found, sent, hfound, -, hsent, hP⟩ := hh.grown s old hold
      obtain rfl := Option.some.inj (hget.symm.trans hfound)
      exact ⟨sent, hsent, hP⟩

/-- **Whatever is sent was published.** -/
theorem Isolated.sends (h₀ : h.Isolated b published) {e : TrackerEvent}
    (hstep : lifetime.step h e = some h') {socket : Socket}
    (hget : h'.sockets.get? s = some socket) :
    ∃ sent, socket.sent = h.sentTo s ++ sent ∧
      ∀ m ∈ sent, Told b (published ++ h.publishes b e) m := by
  cases e with
  | hub e => exact (h₀.hub_sends hstep).sentTo hget
  | postSegments admitted t b' p report =>
      dsimp only [lifetime] at hstep
      cases hpost : TrackerServer.postSegments h.store admitted t b' p report with
      | error _ =>
          rw [hpost] at hstep
          obtain rfl := Option.some.inj hstep
          exact (Sends.refl h).sentTo hget
      | ok result =>
          rw [hpost] at hstep
          obtain rfl := Option.some.inj hstep
          refine Sends.sentTo (Sends.withStore (sends_publishInventory ?_)) hget
          rintro rfl
          exact List.mem_append_right _ (mem_publishes_post hpost)
  | reportFailure now b' p report =>
      obtain rfl := Option.some.inj hstep
      refine Sends.sentTo (Sends.of_eq ?_) hget
      unfold withStore
      split <;> rfl
  | restart perTurn size random =>
      obtain rfl := Option.some.inj hstep
      cases hget

/-! ## Removal -/

/-- A record that is not empty has a socket in one of its sets. -/
theorem exists_mem_bucket {subscribers : BroadcastSubscribers}
    (hempty : subscribers.isEmpty = false) (htidy : subscribers.Tidy) :
    ∃ x d, x ∈ subscribers.bucket d := by
  have hsome : ∀ set : OrderedSet SocketId, set.size ≠ 0 → ∃ x, x ∈ set :=
    fun set hsize => List.exists_mem_of_length_pos (Nat.pos_of_ne_zero hsize)
  by_cases himmediate : subscribers.immediate.size = 0
  · by_cases hbatched : subscribers.batched.size = 0
    · have hviewers : subscribers.viewers.size ≠ 0 := by
        intro hnone
        rw [BroadcastSubscribers.isEmpty, decide_eq_true ⟨himmediate, hbatched, hnone⟩] at hempty
        cases hempty
      obtain ⟨⟨p, sockets⟩, hmem⟩ := List.exists_mem_of_length_pos (Nat.pos_of_ne_zero hviewers)
      have hget := OrderedMap.get?_eq_some_iff.mpr hmem
      obtain ⟨x, hx⟩ := hsome sockets (htidy p sockets hget).ne'
      refine ⟨x, .viewers p, ?_⟩
      show x ∈ (subscribers.viewers.get? p).getD ∅
      rw [hget, Option.getD_some]
      exact hx
    · obtain ⟨x, hx⟩ := hsome _ hbatched
      exact ⟨x, .batched, hx⟩
  · obtain ⟨x, hx⟩ := hsome _ himmediate
    exact ⟨x, .immediate, hx⟩

theorem Placed.get?_eq_none (hp : h.Placed) (hnone : ∀ s d, ¬ h.BelongsIn s b d) :
    h.subscribersByBroadcast.get? b = none := by
  cases hget : h.subscribersByBroadcast.get? b with
  | none => rfl
  | some subscribers =>
      obtain ⟨hempty, htidy⟩ := hp.kept b subscribers hget
      obtain ⟨x, d, hx⟩ := exists_mem_bucket hempty htidy
      have hat : h.bucketAt b d = subscribers.bucket d := by
        rw [bucketAt, subscribersAt, hget, Option.getD_some]
      exact absurd ((hp.placed x b d).mp (hat ▸ hx)) (hnone x d)

theorem get?_dropSubscribers (dropped : List SocketId) : ∀ (h : TrackerWebSocketHub) (x : SocketId),
    (dropped.foldl dropSubscriber h).subscriptions.get? x =
      if x ∈ dropped then some EMPTY_SUBSCRIPTION else h.subscriptions.get? x := by
  induction dropped with
  | nil => exact fun _ _ => (if_neg List.not_mem_nil).symm
  | cons s rest ih =>
      intro h x
      obtain ⟨index, heq⟩ := h.dropSubscriber_eq s
      rw [List.foldl_cons, ih, heq]
      dsimp only
      rw [OrderedMap.get?_set]
      by_cases hrest : x ∈ rest
      · rw [if_pos hrest, if_pos (List.mem_cons_of_mem _ hrest)]
      · rw [if_neg hrest]
        simp only [List.mem_cons, hrest, or_false]

/-- Whoever has a subscription to the broadcast is among its subscribers. -/
theorem Placed.mem_subscribersOf (hp : h.Placed) {d : Bucket} (hs : h.BelongsIn s b d) :
    s ∈ h.subscribersOf b := by
  have hmem := (hp.placed s b d).mpr hs
  unfold bucketAt subscribersAt at hmem
  unfold subscribersOf
  cases hget : h.subscribersByBroadcast.get? b with
  | none =>
      rw [hget] at hmem
      exact absurd hmem (BroadcastSubscribers.not_mem_bucket_new 0 d)
  | some subscribers =>
      rw [hget, Option.getD_some] at hmem
      simp only [List.mem_append, List.mem_flatMap, OrderedMap.mem_values_iff]
      cases d with
      | immediate => exact Or.inl (Or.inl hmem)
      | batched => exact Or.inl (Or.inr hmem)
      | viewers p =>
          change s ∈ (subscribers.viewers.get? p).getD ∅ at hmem
          cases hp' : subscribers.viewers.get? p with
          | none =>
              rw [hp'] at hmem
              exact absurd hmem (OrderedSet.not_mem_empty s)
          | some sockets =>
              rw [hp', Option.getD_some] at hmem
              exact Or.inr ⟨sockets, ⟨p, hp'⟩, hmem⟩

/-- Nobody is subscribed to a broadcast that was just removed. -/
theorem not_belongsIn_removed (hp : h.Placed) (s : SocketId) (d : Bucket) :
    ¬ (h.broadcastRemoved b).BelongsIn s b d := by
  rintro ⟨sub, hsub, hne, hb, hbucket⟩
  have hget := (get?_dropSubscribers _ _ s).symm.trans hsub
  by_cases hdropped : s ∈ h.subscribersOf b
  · obtain rfl := Option.some.inj ((if_pos hdropped).symm.trans hget)
    exact hne rfl
  · have hkept : h.subscriptions.get? s = some sub := (if_neg hdropped).symm.trans hget
    exact hdropped (hp.mem_subscribersOf ⟨sub, hkept, hne, hb, hbucket⟩)

theorem neighborViews_broadcastRemoved (h : TrackerWebSocketHub) (b : BroadcastId) :
    (h.broadcastRemoved b).neighborViews =
      h.neighborViews.map fun v : NeighborViews => v.removeBroadcast b := by
  have hdrop : ∀ (dropped : List SocketId) (h : TrackerWebSocketHub),
      (dropped.foldl dropSubscriber h).neighborViews = h.neighborViews := by
    intro dropped
    induction dropped with
    | nil => exact fun _ => rfl
    | cons s rest ih =>
        intro h
        obtain ⟨index, heq⟩ := h.dropSubscriber_eq s
        rw [List.foldl_cons, ih, heq]
        rfl
  exact hdrop _ _

/-- **What is left of a removed broadcast**: nothing that waits, is being sent or stored. -/
theorem isolated_removed (h₀ : h.Isolated b published) (hp : h.Placed) {store : TrackerStore}
    (hremove : h.store.unregisterBroadcast b = .ok store)
    (hstep : h.step (.unregisterBroadcast b) = some h') : h'.Isolated b [] := by
  have hnext := h₀.hub_step hstep
  have hforget := getPeer_unregisterBroadcast hremove
  obtain ⟨-, -, -, hpending, -⟩ := broadcastRemoved_spec (h₀.forget hforget) b
  have hplaced : Placed { h with store := store } := hp.withStore store
  have hgone := (hplaced.broadcastRemoved b).get?_eq_none (not_belongsIn_removed hplaced)
  dsimp only [TrackerWebSocketHub.step] at hstep
  rw [hremove] at hstep
  obtain rfl := Option.some.inj hstep
  refine ⟨⟨hnext.toSteady, hnext.snapshots, ?_, ?_⟩, fun q peer hpeer => ?_⟩
  · rintro b' q rfl
    rw [waiting, pendingAt, hpending, OrderedMap.get?_delete, if_pos rfl]
    exact covers_keep [] q
  · rintro b' q rfl
    unfold inFlight
    split
    · exact covers_keep [] q
    · rename_i job _
      have hother : ¬ (broadcastRemoved { h with store := store } b').isCurrent b' job = true := by
        rw [isCurrent_iff, subscribersId, hgone]
        exact (Option.some_ne_none _).symm
      rw [if_neg hother]
      exact covers_keep [] q
  · rw [(broadcastRemoved_untouched ..).store] at hpeer
    have hnone := (hforget b q).symm.trans hpeer
    rw [if_pos rfl] at hnone
    cases hnone

theorem placed_event (hsteady : h.Steady) (hp : h.Placed) {e : TrackerEvent}
    (hstep : lifetime.step h e = some h') : h'.Placed := by
  cases e with
  | hub e =>
      have hhub : h.step e = some h' := hstep
      cases hflushes : e.flushes with
      | true => exact (placed_flush.step ⟨hsteady, hp⟩ (step_flushes hflushes hhub)).2
      | false => exact (step_handles hsteady.keyed hflushes hhub).placed hsteady.indexed hp
  | postSegments admitted t b' p report =>
      dsimp only [lifetime] at hstep
      split at hstep
      · obtain rfl := Option.some.inj hstep
        exact hp
      · obtain rfl := Option.some.inj hstep
        exact (hp.withStore _).publishInventory _
  | reportFailure now b' p report =>
      obtain rfl := Option.some.inj hstep
      unfold withStore
      split
      · exact hp
      · exact hp.withStore _
  | restart perTurn size random =>
      obtain rfl := Option.some.inj hstep
      exact placed_new ..

/-- Whatever happened so far, what is kept of a broadcast was published. -/
theorem isolated_reachable (hr : lifetime.Reachable (fun _ _ => True) h) (b : BroadcastId) :
    (∃ published, h.Isolated b published) ∧ h.Placed := by
  refine hr.invariant (fun h => (∃ published, h.Isolated b published) ∧ h.Placed) ?_ ?_
  · rintro h ⟨perTurn, size, random, max, rfl⟩
    have hsourced : Sourced (fun b' q o => b' = b → Covers [] q o)
        (.new perTurn size random (.new max)) :=
      sourced_new (fun _ q _ => covers_keep [] q) perTurn size random
        fun _ _ _ hget => nomatch hget
    exact ⟨⟨[], hsourced, fun _ _ hget => nomatch hget⟩, placed_new ..⟩
  · rintro h e h' ⟨⟨published, h₀⟩, hp⟩ - hstep
    exact ⟨⟨_, h₀.step hstep⟩, placed_event h₀.toSteady hp hstep⟩

/-! ## The broadcast that comes after -/

/-- Both ends of every link in the views of the broadcast joined. -/
def LinksKnown (b : BroadcastId) (published : List Publication) (h : TrackerWebSocketHub) : Prop :=
  ∀ v p q, h.neighborViews = some v →
    q ∈ (v.broadcastViews b).viewOf p ∨ q ∈ (v.broadcastViews b).watchersOf p →
      HasJoined published p ∧ HasJoined published q

theorem Isolated.linksKnown (h₀ : h.Isolated b published) : h.LinksKnown b published := by
  intro v p q hv hlink
  have hjoined : ∀ x, x ∈ v.members b → HasJoined published x := by
    intro x hx
    obtain ⟨peer, hpeer⟩ := Option.isSome_iff_exists.mp (h₀.registered b x ⟨v, hv, hx⟩)
    exact h₀.keyed b x peer hpeer ▸ (h₀.stored x peer hpeer).hasJoined
  have hwf := h₀.views v hv
  rcases hlink with hview | hwatcher
  · obtain ⟨hp, hq⟩ := NeighborViews.mem_members_of_mem_viewOf hwf hview
    exact ⟨hjoined p hp, hjoined q hq⟩
  · have hview := ((hwf.broadcastViews b).mirror q p).mp hwatcher
    obtain ⟨hq, hp⟩ := NeighborViews.mem_members_of_mem_viewOf hwf hview
    exact ⟨hjoined p hp, hjoined q hq⟩

/-- **Reusing the ID of a removed broadcast.** Right after the removal the broadcast has no
view, no watcher and no subscriber. In every run from there, links are between peers that
joined in the run, and what any event sends of the broadcast was published in the run. -/
theorem broadcast_reuse_isolated (hr : lifetime.Reachable (fun _ _ => True) h)
    {store : TrackerStore} (hremove : h.store.unregisterBroadcast b = .ok store)
    {h₁ : TrackerWebSocketHub}
    (hremoved : lifetime.step h (.hub (.unregisterBroadcast b)) = some h₁) :
    (∀ v, h₁.neighborViews = some v → v.broadcastViews b = .empty) ∧
      (∀ s d, ¬ h₁.BelongsIn s b d) ∧
      ∀ es h₂, lifetime.run h₁ es = some h₂ →
        h₂.LinksKnown b (publishedIn b h₁ es) ∧
        ∀ e h₃ s socket, lifetime.step h₂ e = some h₃ → h₃.sockets.get? s = some socket →
          ∃ sent, socket.sent = h₂.sentTo s ++ sent ∧
            ∀ m ∈ sent, m.broadcastId = b → Accounts (publishedIn b h₁ (es ++ [e])) m := by
  obtain ⟨⟨published, h₀⟩, hp⟩ := isolated_reachable hr b
  have hclean := isolated_removed h₀ hp hremove hremoved
  have hlast : h₁ = broadcastRemoved { h with store := store } b := by
    have hhub : h.step (.unregisterBroadcast b) = some h₁ := hremoved
    dsimp only [TrackerWebSocketHub.step] at hhub
    rw [hremove] at hhub
    exact (Option.some.inj hhub).symm
  refine ⟨fun v hv => ?_, fun s d => ?_, fun es h₂ hrun => ?_⟩
  · rw [hlast, neighborViews_broadcastRemoved] at hv
    obtain ⟨old, -, rfl⟩ := Option.map_eq_some_iff.mp hv
    rw [NeighborViews.broadcastViews_removeBroadcast, if_pos rfl]
  · rw [hlast]
    exact not_belongsIn_removed (hp.withStore store) s d
  · have hlater := hclean.run hrun
    rw [List.nil_append] at hlater
    refine ⟨hlater.linksKnown, fun e h₃ s socket hstep hget => ?_⟩
    obtain ⟨sent, hsent, htold⟩ := hlater.sends hstep hget
    refine ⟨sent, hsent, fun m hm hb => ?_⟩
    have hevent : publishedIn b h₂ [e] = h₂.publishes b e := by
      rw [publishedIn, hstep]
      exact List.append_nil _
    rw [publishedIn_append hrun, hevent]
    exact htold m hm hb

/-! ## A flush that outlives its broadcast -/

/-- The broadcast is registered again, and a new viewer is there before the next turn. -/
def registeredAgain : List TrackerEvent :=
  [.hub (.registerBroadcast 1 ⟨"live", "https://origin/live.m3u8", none⟩), .hub (joinLive "r"),
    .hub (.connected 2 ⟨"live", "r"⟩), .hub (viewLive 2 "r")]

theorem broadcast_reuse_isolated_firstSlice : ∃ h h₁ h₂ h₃ socket,
    lifetime.run start (firstSlice.map .hub) = some h ∧
      lifetime.step h (.hub (.unregisterBroadcast "live")) = some h₁ ∧
      lifetime.run h₁ registeredAgain = some h₂ ∧
      lifetime.step h₂ (.hub (.flushTurn "live")) = some h₃ ∧ h₃.sockets.get? 2 = some socket ∧
      ∃ sent, socket.sent = h₂.sentTo 2 ++ sent ∧ ∀ m ∈ sent, m.broadcastId = "live" →
        Accounts (publishedIn "live" h₁ (registeredAgain ++ [.hub (.flushTurn "live")])) m := by
  have hsome : ((lifetime.run start (firstSlice.map .hub)).any fun h =>
      (h.store.unregisterBroadcast "live").isOk &&
        (lifetime.step h (.hub (.unregisterBroadcast "live"))).any fun h₁ =>
          (lifetime.run h₁ registeredAgain).any fun h₂ =>
            (lifetime.step h₂ (.hub (.flushTurn "live"))).any fun h₃ =>
              (h₃.sockets.get? 2).isSome) = true := by decide +kernel
  obtain ⟨h, hrun, hsome⟩ := (Option.any_eq_true _ _).mp hsome
  obtain ⟨hremove, hsome⟩ := Bool.and_eq_true_iff.mp hsome
  obtain ⟨h₁, hremoved, hsome⟩ := (Option.any_eq_true _ _).mp hsome
  obtain ⟨h₂, hagain, hsome⟩ := (Option.any_eq_true _ _).mp hsome
  obtain ⟨h₃, hturn, hsome⟩ := (Option.any_eq_true _ _).mp hsome
  obtain ⟨socket, hget⟩ := Option.isSome_iff_exists.mp hsome
  have hr : lifetime.Reachable (fun _ _ => True) h :=
    TransitionSystem.reachable_of_run ⟨1, 4, _, 10, rfl⟩ hrun
  cases hstore : h.store.unregisterBroadcast "live" with
  | error _ =>
      rw [hstore] at hremove
      cases hremove
  | ok store =>
      obtain ⟨-, -, hlater⟩ := broadcast_reuse_isolated hr hstore hremoved
      exact ⟨h, h₁, h₂, h₃, socket, hrun, hremoved, hagain, hturn, hget,
        (hlater registeredAgain h₂ hagain).2 _ h₃ 2 socket hturn hget⟩

end TrackerWebSocketHub

end OpenStreamGrid
