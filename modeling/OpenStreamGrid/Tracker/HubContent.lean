import OpenStreamGrid.Tracker.HubInventory
import OpenStreamGrid.Tracker.HubLogs

/-!
# Where the content comes from

A flush sends what was pending, or what the snapshot of a running flush has. A step stores
what was stored, a joining peer, or what a report says of one. And what is pending or being
sent is what was, with the reports that were accepted.
-/

namespace OpenStreamGrid

namespace TrackerWebSocketHub

variable {h h' : TrackerWebSocketHub} {s : SocketId} {b : BroadcastId} {p q : PeerId}
  {P : WsServerMessage → Prop} {updates : OrderedMap PeerId SegmentInventoryUpdate}

/-! ## What a flush sends -/

theorem Sends.congr {h₁ : TrackerWebSocketHub} (hh : Sends P h₁ h')
    (heq : h₁.sockets = h.sockets) : Sends P h h' :=
  (Sends.of_eq heq).trans hh

/-- `P` holds of every batch of the updates. -/
def Batches (P : WsServerMessage → Prop) (b : BroadcastId)
    (updates : OrderedMap PeerId SegmentInventoryUpdate) : Prop :=
  ∀ batch : List SegmentInventoryUpdate, (∀ u ∈ batch, u ∈ updates.values) →
    P (.segmentInventoryBatch b batch)

theorem all_sendBatch (hbatches : Batches P b updates) {us : List SegmentInventoryUpdate}
    (hus : ∀ u ∈ us, u ∈ updates.values) (sockets : OrderedSet SocketId) :
    All P (sendBatch b us sockets) := by
  refine .flatMap fun _ _ => all_sendToAll (hbatches _ fun u hu => hus u ?_)
  exact List.mem_of_mem_drop (List.mem_of_mem_take hu)

theorem all_viewerBatch (hbatches : Batches P b updates) (p : PeerId) :
    All P (h.viewerBatch b updates p) := by
  unfold viewerBatch
  split
  · refine all_sendBatch hbatches (fun u hu => ?_) _
    split_ifs at hu
    · obtain ⟨q, -, hget⟩ := List.mem_filterMap.mp hu
      exact OrderedMap.mem_values_iff.mpr ⟨q, hget⟩
    · exact List.mem_of_mem_filter hu
  · exact all_nil

/-- A slice sends updates of its flush, and nothing once the subscribers were replaced. -/
theorem sends_sendSlice {job : FlushJob}
    (hbatches : h.isCurrent b job = true → Batches P b job.updates) :
    Sends P h (h.sendSlice b job).1 := by
  have hserved : All P (((job.viewerIds.take (h.sliceEnd b job)).drop job.start).flatMap
      (h.viewerBatch b job.updates)) := by
    by_cases hcurrent : h.isCurrent b job = true
    · exact .flatMap fun p _ => all_viewerBatch (hbatches hcurrent) p
    · rw [sliceEnd, if_neg hcurrent, List.drop_take, Nat.sub_self, List.take_zero]
      exact all_nil
  have hsent : Sends P h (h.deliver _) := sends_deliver hserved rfl
  unfold sendSlice
  dsimp only
  split_ifs
  · exact hsent.trans (.of_eq rfl)
  · exact hsent.trans (.of_eq rfl)

/-- `P` holds of every batch of what is pending for the broadcast. -/
def PendingIs (P : WsServerMessage → Prop) (h : TrackerWebSocketHub) (b : BroadcastId) : Prop :=
  ∀ pending, h.pendingInventory.get? b = some pending → Batches P b (toUpdates pending)

theorem sends_startFlush (hpending : h.PendingIs P b) : Sends P h (h.startFlush b).1 := by
  unfold startFlush
  dsimp only
  split
  · rename_i pending subscribers hget hsubscribers
    have hbatches := hpending pending hget
    have hbatched : All P (if subscribers.batched.size > 0 then
        sendBatch b (toUpdates pending).values subscribers.batched else []) := by
      split_ifs
      · exact all_sendBatch hbatches (fun _ hu => hu) _
      · exact all_nil
    generalize (if subscribers.batched.size > 0 then
      sendBatch b (toUpdates pending).values subscribers.batched else []) = out at hbatched ⊢
    have hsent : Sends P h ((h.taken b).deliver out) := sends_deliver hbatched rfl
    split_ifs
    · exact .of_eq rfl
    · exact hsent
    · refine Sends.trans ?_ (sends_sendSlice fun _ => hbatches)
      exact hsent.trans (.of_eq rfl)
  · exact .of_eq rfl

theorem sendSlice_kept (h : TrackerWebSocketHub) (b : BroadcastId) (job : FlushJob) :
    (h.sendSlice b job).1.pendingInventory = h.pendingInventory ∧
      (h.sendSlice b job).1.store = h.store := by
  obtain ⟨sockets, ⟨-, heq⟩ | ⟨-, heq⟩⟩ := h.sendSlice_cases b job
  · rw [heq]
    exact ⟨rfl, rfl⟩
  · rw [heq]
    exact ⟨rfl, rfl⟩

theorem startFlush_kept (h : TrackerWebSocketHub) (b : BroadcastId) :
    (h.startFlush b).1.pendingInventory = h.pendingInventory.delete b ∧
      (h.startFlush b).1.store = h.store := by
  unfold startFlush
  dsimp only
  split
  · rename_i pending subscribers _ _
    generalize (if subscribers.batched.size > 0 then
      sendBatch b (toUpdates pending).values subscribers.batched else []) = out
    split_ifs
    · exact ⟨rfl, rfl⟩
    · exact ⟨rfl, rfl⟩
    · exact sendSlice_kept _ b _
  · exact ⟨rfl, rfl⟩

theorem sends_flushRequestedNext (hpending : h.PendingIs P b) :
    Sends P h (h.flushRequestedNext b) := by
  unfold flushRequestedNext
  split_ifs
  · exact (sends_startFlush (h := { h with flushRequested := h.flushRequested.erase b })
      hpending).congr rfl
  · exact .refl h

/-- **A flush sends what was pending or is being sent.** -/
theorem FlushEffect.sends (heff : FlushEffect h h')
    (hjobs : ∀ b job, h.immediates.get? b = some job → h.isCurrent b job = true →
      Batches P b job.updates)
    (hpending : ∀ b, h.PendingIs P b) : Sends P h h' := by
  cases heff with
  | batchTimer b =>
      have hstart : Sends P { h with timers := h.timers.erase b }
          ({ h with timers := h.timers.erase b }.startFlush b).1 :=
        sends_startFlush (hpending b)
      unfold flushInventory
      dsimp only
      split_ifs
      · exact .of_eq rfl
      · refine (hstart.trans (sends_flushRequestedNext ?_)).congr rfl
        intro pending hget
        rw [(startFlush_kept ..).1, OrderedMap.get?_delete, if_pos rfl] at hget
        cases hget
      · exact hstart.congr rfl
  | @flushTurn b job hjob =>
      have hslice : Sends P { h with immediates := h.immediates.delete b }
          ({ h with immediates := h.immediates.delete b }.sendSlice b job).1 :=
        sends_sendSlice (hjobs b job hjob)
      unfold sendViewerBatches
      dsimp only
      split_ifs
      · refine (hslice.trans (sends_flushRequestedNext ?_)).congr rfl
        intro pending hget
        rw [(sendSlice_kept ..).1] at hget
        exact hpending b pending hget
      · exact hslice.congr rfl

/-! ## What a step stores -/

theorem store_flushRequestedNext (h : TrackerWebSocketHub) (b : BroadcastId) :
    (h.flushRequestedNext b).store = h.store := by
  unfold flushRequestedNext
  split_ifs
  · exact (startFlush_kept ..).2
  · rfl

theorem FlushEffect.store (heff : FlushEffect h h') : h'.store = h.store := by
  cases heff with
  | batchTimer b =>
      unfold flushInventory
      dsimp only
      split_ifs
      · rfl
      · rw [store_flushRequestedNext, (startFlush_kept ..).2]
      · exact (startFlush_kept ..).2
  | @flushTurn b job _ =>
      unfold sendViewerBatches
      dsimp only
      split_ifs
      · rw [store_flushRequestedNext, (sendSlice_kept ..).2]
      · exact (sendSlice_kept ..).2

/-- What no change to a present record touches. -/
structure SameMember (new old : Peer) : Prop where
  id : new.id = old.id
  address : new.address = old.address
  metadata : new.metadata = old.metadata
  joinedAt : new.joinedAt = old.joinedAt

/-- What an event can store. -/
inductive Stores (h : TrackerWebSocketHub) : HubEvent → TrackerStore → Prop where
  /-- What is stored was stored. -/
  | kept (e : HubEvent) {store : TrackerStore}
      (hstore : ∀ b q peer, store.getPeer b q = some peer → h.store.getPeer b q = some peer) :
      Stores h e store
  | joined {t : Timestamp} {b : BroadcastId} {request : PeerJoinRequest}
      {options : JoinPeerOptions} {store : TrackerStore} {peer : Peer} {already : Bool}
      (hjoin : h.store.joinPeerDetailed t b request options = .ok (store, peer, already)) :
      Stores h (.joinPeer t b request options) store
  /-- A heartbeat, or counters. -/
  | revised (e : HubEvent) {b : BroadcastId} {p : PeerId} {store : TrackerStore} {old new : Peer}
      (hold : h.store.getPeer b p = some old)
      (hstore : ∀ b' q, store.getPeer b' q
        = if b' = b ∧ q = p then some new else h.store.getPeer b' q)
      (hmember : SameMember new old) (hsegments : new.segments = old.segments) :
      Stores h e store
  | reported {s : SocketId} {admitted : Bool} {t : Timestamp} {b : BroadcastId} {q : PeerId}
      {message : ReportSegmentsMessage} {store : TrackerStore} {old new : Peer}
      (haccepted : (h.handleMessage s admitted t (.reportSegments b q message)).isOk = true)
      (hold : h.store.getPeer b q = some old)
      (hstore : ∀ b' q', store.getPeer b' q'
        = if b' = b ∧ q' = q then some new else h.store.getPeer b' q')
      (hmember : SameMember new old)
      (hsegments : new.segments
        = limitInventory (message.merged old.segments) h.store.maxSegmentsPerPeer) :
      Stores h (.received s admitted t (.reportSegments b q message)) store

theorem Stores.same (e : HubEvent) : Stores h e h.store := .kept e fun _ _ _ => id

theorem stores_withStore (e : HubEvent) {f : PeerState → PeerState}
    (hmember : ∀ old, SameMember (f old).peer old.peer)
    (hsegments : ∀ old, (f old).peer.segments = old.peer.segments) :
    Stores h e (h.withStore (h.store.modifyPeer b p f)).store := by
  unfold withStore
  cases hmodify : h.store.modifyPeer b p f with
  | error _ => exact .same e
  | ok result =>
      obtain ⟨old, hold, -, hupdated⟩ := TrackerStore.modifyPeer_updated hmodify
      have hget : h.store.getPeer b p = some old.peer := by
        rw [TrackerStore.getPeer, hold, Option.map_some]
      exact .revised e hget hupdated.getPeer (hmember old) (hsegments old)

theorem stores_report {admitted : Bool} {t : Timestamp} {message : ReportSegmentsMessage}
    (haccepted : (h.handleMessage s admitted t (.reportSegments b p message)).isOk = true)
    (hok : h.handleReport s admitted t b p message = .ok h') :
    Stores h (.received s admitted t (.reportSegments b p message)) h'.store := by
  rcases handleReport_ok hok with rfl | ⟨old, m, store, hget, -, -, -, hupdated, rfl⟩
  · exact .same _
  · rw [(publishInventory_untouched ..).store]
    exact .reported haccepted hget hupdated.getPeer ⟨rfl, rfl, rfl, rfl⟩ rfl

/-- Peers may be forgotten. -/
theorem Stores.forgot (e : HubEvent) {store : TrackerStore} {gone : BroadcastId → PeerId → Prop}
    [∀ b q, Decidable (gone b q)]
    (hstore : ∀ b q, store.getPeer b q = if gone b q then none else h.store.getPeer b q) :
    Stores h e store := by
  refine .kept e fun b q peer hpeer => ?_
  rw [hstore] at hpeer
  split_ifs at hpeer
  exact hpeer

/-- **What is stored after a step.** -/
theorem step_stores (hsound : h.Sound) {e : HubEvent} (hstep : h.step e = some h') :
    Stores h e h'.store := by
  cases e with
  | registerBroadcast t registration =>
      obtain rfl := Option.some.inj hstep
      refine .kept _ fun b q peer hpeer => ?_
      rwa [TrackerStore.getPeer, TrackerStore.peerState?_registerBroadcast] at hpeer
  | unregisterBroadcast b =>
      dsimp only [step] at hstep
      cases hremove : h.store.unregisterBroadcast b with
      | error _ =>
          rw [hremove] at hstep
          obtain rfl := Option.some.inj hstep
          exact .same _
      | ok store =>
          rw [hremove] at hstep
          obtain rfl := Option.some.inj hstep
          rw [(broadcastRemoved_untouched ..).store]
          exact .forgot _ (getPeer_unregisterBroadcast hremove)
  | joinPeer t b request options =>
      dsimp only [step] at hstep
      cases hjoin : h.store.joinPeerDetailed t b request options with
      | error _ =>
          rw [hjoin] at hstep
          obtain rfl := Option.some.inj hstep
          exact .same _
      | ok result =>
          obtain ⟨store, peer, already⟩ := result
          rw [hjoin] at hstep
          cases already with
          | true =>
              obtain rfl := Option.some.inj hstep
              exact .joined hjoin
          | false =>
              obtain rfl := Option.some.inj hstep
              rw [(peerJoined_untouched ..).store]
              exact .joined hjoin
  | leavePeer b p =>
      dsimp only [step] at hstep
      cases hleave : h.store.leavePeer b p with
      | error _ =>
          rw [hleave] at hstep
          obtain rfl := Option.some.inj hstep
          exact .same _
      | ok store =>
          rw [hleave] at hstep
          obtain rfl := Option.some.inj hstep
          obtain ⟨-, rfl⟩ := TrackerStore.leavePeer_ok.mp hleave
          rw [(peerLeft_untouched ..).store]
          exact .forgot _ (getPeer_retirePeers h.store [⟨b, p⟩])
  | removeStalePeers now maxAgeMs =>
      dsimp only [step] at hstep
      rw [TrackerStore.removeStalePeers_eq] at hstep
      obtain rfl := Option.some.inj hstep
      show Stores h _ (peersLeft _ _).store
      rw [(peersLeft_untouched ..).store]
      exact .forgot _ (getPeer_retirePeers h.store _)
  | heartbeat t b p heartbeat =>
      obtain rfl := Option.some.inj hstep
      exact stores_withStore _ (fun _ => ⟨rfl, rfl, rfl, rfl⟩) fun _ => rfl
  | reportStats t b p stats =>
      obtain rfl := Option.some.inj hstep
      exact stores_withStore _ (fun _ => ⟨rfl, rfl, rfl, rfl⟩) fun _ => rfl
  | connected s claims =>
      dsimp only [step] at hstep
      split_ifs at hstep
      obtain rfl := Option.some.inj hstep
      exact .same _
  | received s admitted t message =>
      dsimp only [step] at hstep
      split_ifs at hstep
      cases hmessage : h.handleMessage s admitted t message with
      | error _ =>
          rw [hmessage] at hstep
          obtain rfl := Option.some.inj hstep
          exact .same _
      | ok result =>
          rw [hmessage] at hstep
          obtain rfl := Option.some.inj hstep
          rcases handleMessage_ok hmessage with
            ⟨b, p, features, -, -, hok⟩ | ⟨b, p, report, rfl, hok⟩
          · obtain ⟨-, views, out, batch, view, peers, -, -, rfl⟩ :=
              handleSubscribe_ok (fun _ => Set.univ) hsound (fun _ _ _ => trivial) hok
            rw [(subscribed_untouched ..).store]
            exact .same _
          · refine stores_report ?_ hok
            rw [hmessage]
            rfl
  | closing s =>
      dsimp only [step] at hstep
      split_ifs at hstep
      obtain rfl := Option.some.inj hstep
      exact .same _
  | closed s =>
      dsimp only [step] at hstep
      split_ifs at hstep
      obtain rfl := Option.some.inj hstep
      obtain ⟨index, heq⟩ := h.removeSocket_eq s
      rw [heq]
      exact .same _
  | batchTimer | flushTurn =>
      rw [(step_flushes rfl hstep).store]
      exact .same _

/-! ## What waits and what is being sent -/

theorem waiting_publishInventory (hsound : h.Sound) (m : InventoryMessage) (b : BroadcastId)
    (q : PeerId) :
    (h.publishInventory m).waiting b q = h.waiting b q ∨
      b = m.broadcastId ∧ q = m.peerId ∧
        (h.publishInventory m).waiting b q = (h.waiting b q).andThen m.effect := by
  obtain ⟨out, timers, pendingInventory, -, heq, hpending⟩ := publishInventory_spec hsound m
  have hat : (h.publishInventory m).pendingAt b q =
      if h.queues m.broadcastId = true ∧ b = m.broadcastId ∧ q = m.peerId then
        some (mergePending (h.pendingAt m.broadcastId m.peerId) m)
      else h.pendingAt b q := by
    rw [heq]
    exact hpending b q
  split_ifs at hat with hqueued
  · obtain ⟨-, rfl, rfl⟩ := hqueued
    exact Or.inr ⟨rfl, rfl, waiting_of_merge hat⟩
  · exact Or.inl (waiting_congr hat)

/-- What waits is what waited, or nothing, or a report was added to it. -/
theorem StepEffect.waiting {e : HubEvent} (heff : StepEffect h e h') (hsteady : h.Steady)
    (b : BroadcastId) (q : PeerId) :
    h'.waiting b q = h.waiting b q ∨ h'.waiting b q = .keep ∨
      ∃ s admitted t message, e = .received s admitted t (.reportSegments b q message) ∧
        h'.waiting b q = (h.waiting b q).andThen message.effect := by
  have hnothing : h'.pendingAt b q = none → h'.waiting b q = .keep := by
    intro hnone
    rw [TrackerWebSocketHub.waiting, hnone]
    rfl
  cases heff with
  | stored => exact Or.inl rfl
  | @joined t b₀ request options store peer habsent hid hsegments hstore =>
      have hget : store.getPeer b₀ peer.id = some peer := by
        rw [hstore, hid, if_pos ⟨rfl, rfl⟩]
      obtain ⟨h₁, out, heq, -, hpending, -⟩ := peerJoined_spec (hsteady.withPeer hid hstore) hget
      refine Or.inl (waiting_congr ?_)
      rw [heq]
      change (h₁.pendingInventory.get? b).bind _ = _
      rw [hpending]
      rfl
  | @left _ removed store hstore =>
      have hleft := peersLeft_departed removed (hsteady.forget hstore)
        (not_stored_of_removed hstore)
      have hpending := hleft.pending b q
      split_ifs at hpending
      · exact Or.inr (Or.inl (hnothing hpending))
      · exact Or.inl (waiting_congr hpending)
  | @unregistered _ b₀ store hstore =>
      obtain ⟨-, -, -, hpending, -⟩ := broadcastRemoved_spec (hsteady.forget hstore) b₀
      have hat : (broadcastRemoved { h with store := store } b₀).pendingAt b q
          = if b = b₀ then none else h.pendingAt b q := by
        rw [pendingAt, hpending, OrderedMap.get?_delete]
        split_ifs <;> rfl
      split_ifs at hat
      · exact Or.inr (Or.inl (hnothing hat))
      · exact Or.inl (waiting_congr hat)
  | unnoticed _ _ _ _ _ hpending =>
      refine Or.inl (waiting_congr ?_)
      rw [pendingAt, hpending]
      rfl
  | @subscribed _ s₀ sub peers h₁ out hh hpending =>
      refine Or.inl (waiting_congr ?_)
      obtain ⟨_, _, _, _, heq⟩ := h₁.subscribed_eq out
        [(s₀, .peerList sub.broadcastId peers)] s₀ sub
      rw [heq]
      change (h₁.pendingInventory.get? b).bind _ = _
      rw [hpending]
      rfl
  | @reported s admitted t b₀ q₀ message m store old new hb hq hold hid _ heffect hstore =>
      have hsound : Sound { h with store := store } :=
        hsteady.withPeer (hid.trans (hsteady.keyed b₀ q₀ old hold)) hstore
      rcases waiting_publishInventory hsound m b q with hsame | ⟨rfl, rfl, hmerged⟩
      · exact Or.inl hsame
      · subst hb hq
        rw [heffect] at hmerged
        exact Or.inr (Or.inr ⟨s, admitted, t, message, rfl, hmerged⟩)

/-- A report that is added was accepted. -/
theorem waiting_step (hsteady : h.Steady) {e : HubEvent} (hflushes : e.flushes = false)
    (hstep : h.step e = some h') (b : BroadcastId) (q : PeerId) :
    h'.waiting b q = h.waiting b q ∨ h'.waiting b q = .keep ∨
      ∃ s admitted t message, e = .received s admitted t (.reportSegments b q message) ∧
        (h.handleMessage s admitted t (.reportSegments b q message)).isOk = true ∧
        h'.waiting b q = (h.waiting b q).andThen message.effect := by
  have heff := (step_handles hsteady.keyed hflushes hstep).effect hsteady.toSound
  rcases heff.waiting hsteady b q with hsame | hnone | ⟨s, admitted, t, message, rfl, hmerged⟩
  · exact Or.inl hsame
  · exact Or.inr (Or.inl hnone)
  · dsimp only [step] at hstep
    split_ifs at hstep
    cases hmessage : h.handleMessage s admitted t (.reportSegments b q message) with
    | error _ =>
        rw [hmessage] at hstep
        obtain rfl := Option.some.inj hstep
        exact Or.inl rfl
    | ok _ =>
        refine Or.inr (Or.inr ⟨s, admitted, t, message, rfl, ?_, hmerged⟩)
        rw [hmessage]
        rfl

/-- Between two handlers: `C` holds of everything that waits or is being sent. -/
structure Sourced (C : BroadcastId → PeerId → Overwrite SegmentId → Prop)
    (h : TrackerWebSocketHub) : Prop extends Steady h where
  snapshots : ∀ b job, h.immediates.get? b = some job →
    KeyedUpdates job.updates ∧ job.subscribers < h.subscribersCreated
  waits : ∀ b q, C b q (h.waiting b q)
  running : ∀ b q, C b q (h.inFlight b q)

variable {C C' : BroadcastId → PeerId → Overwrite SegmentId → Prop}

theorem Sourced.mono (h₀ : h.Sourced C) (hmono : ∀ b q o, C b q o → C' b q o) : h.Sourced C' :=
  ⟨h₀.toSteady, h₀.snapshots, fun b q => hmono b q _ (h₀.waits b q),
    fun b q => hmono b q _ (h₀.running b q)⟩

theorem sourced_new (hkeep : ∀ b q, C b q .keep) (perTurn size : ℕ) (random : Stream' Draw)
    {store : TrackerStore} (hkeyed : ∀ b p peer, store.getPeer b p = some peer → peer.id = p) :
    Sourced C (.new perTurn size random store) where
  toSteady := steady_new perTurn size random hkeyed
  snapshots _ _ hjob := nomatch hjob
  waits b q := hkeep b q
  running b q := hkeep b q

/-- What is stored changes nothing of what waits. -/
theorem Sourced.withStore (h₀ : h.Sourced C) {store : TrackerStore}
    (hsteady : Steady { h with store := store }) : Sourced C { h with store := store } :=
  ⟨hsteady, h₀.snapshots, h₀.waits, h₀.running⟩

theorem Sourced.slice (h₀ : h.Sourced C) (hkeep : ∀ b q, C b q .keep) {job : FlushJob}
    {immediates : OrderedMap BroadcastId FlushJob} (hjob : h.immediates.get? b = some job)
    (hnone : immediates.get? b = none)
    (hothers : ∀ b', b' ≠ b → immediates.get? b' = h.immediates.get? b') :
    Sourced C ({ h with immediates := immediates }.sendSlice b job).1 := by
  have hsteady := steady_flush.slice h b job immediates h₀.toSteady hjob hnone hothers
  have ht : TurnTaken b job h _ := sendSlice_turnTaken hnone hothers
  refine ⟨hsteady, fun b' job' hjob' => ?_, fun b' q => ?_, fun b' q => ?_⟩
  · rw [ht.created]
    by_cases hbb : b' = b
    · subst hbb
      have hnext := ht.next
      rw [hjob', nextJob] at hnext
      split_ifs at hnext
      obtain rfl := Option.some.inj hnext
      exact h₀.snapshots b' job hjob
    · exact h₀.snapshots b' job' ((ht.others b' hbb).symm.trans hjob')
  · rw [ht.waiting]
    exact h₀.waits b' q
  · by_cases hbb : b' = b
    · subst hbb
      rcases ht.inFlight hjob q with hsame | hover
      · rw [hsame]
        exact h₀.running b' q
      · rw [inFlight_of_none hover]
        exact hkeep b' q
    · rw [inFlight_congr (ht.others b' hbb) (ht.subscribersId b')]
      exact h₀.running b' q

theorem sourced_flush (hkeep : ∀ b q, C b q .keep) : FlushInvariant (Sourced C) where
  steady _ h₀ := h₀.toSteady
  waits h _ _ h₀ := ⟨steady_flush.waits h _ _ h₀.toSteady, h₀.snapshots, h₀.waits, h₀.running⟩
  ends h b out h₀ hb hquiet hend := by
    refine ⟨steady_flush.ends h b out h₀.toSteady hb hquiet hend, h₀.snapshots,
      fun b' q => ?_, h₀.running⟩
    rw [TrackerWebSocketHub.waiting, pendingAt_taken]
    split_ifs
    · exact hkeep b' q
    · exact h₀.waits b' q
  starts h b out pending subscribers h₀ hb hquiet hpending hsubscribers := by
    have hid : h.subscribersId b = some subscribers.id := by
      rw [subscribersId, hsubscribers, Option.map_some]
    have ht := h.snapshotTaken b out pending subscribers
    refine ⟨steady_flush.starts h b out pending subscribers h₀.toSteady hb hquiet hpending
      hsubscribers, fun b' job hjob => ?_, fun b' q => ?_, fun b' q => ?_⟩
    · by_cases hbb : b' = b
      · subst hbb
        obtain rfl := Option.some.inj (ht.next.symm.trans hjob)
        exact ⟨keyed_toUpdates pending, h₀.indexed.created b' subscribers.id hid⟩
      · exact h₀.snapshots b' job ((ht.others b' hbb).symm.trans hjob)
    · by_cases hbb : b' = b
      · subst hbb
        rw [ht.waiting]
        exact hkeep b' q
      · rw [ht.waiting_of_ne hbb]
        exact h₀.waits b' q
    · by_cases hbb : b' = b
      · subst hbb
        rw [ht.inFlight hpending hsubscribers]
        exact h₀.waits b' q
      · rw [ht.inFlight_of_ne hbb]
        exact h₀.running b' q
  slice _ _ _ _ h₀ hjob hnone hothers := h₀.slice hkeep hjob hnone hothers

/-- **What waits and what is being sent after a step** is what was, with the report the
event brings, if it is accepted. -/
theorem Sourced.step (h₀ : h.Sourced C) (hkeep : ∀ b q, C' b q .keep)
    (hmono : ∀ b q o, C b q o → C' b q o) {e : HubEvent}
    (hreport : ∀ s admitted t b q message, e = .received s admitted t (.reportSegments b q message) →
      (h.handleMessage s admitted t (.reportSegments b q message)).isOk = true →
        ∀ o, C b q o → C' b q (o.andThen message.effect))
    (hstep : h.step e = some h') : h'.Sourced C' := by
  cases hflushes : e.flushes with
  | true => exact (sourced_flush hkeep).step (h₀.mono hmono) (step_flushes hflushes hstep)
  | false =>
      have heff := (step_handles h₀.keyed hflushes hstep).effect h₀.toSound
      obtain ⟨himmediates, -⟩ := heff.scheduling
      obtain ⟨hcreated, hfresh⟩ := heff.subscribers h₀.toSteady
      refine ⟨heff.steady h₀.toSteady, fun b job hjob => ?_, fun b q => ?_, fun b q => ?_⟩
      · rw [himmediates] at hjob
        obtain ⟨hkeyed, hknown⟩ := h₀.snapshots b job hjob
        exact ⟨hkeyed, hknown.trans_le hcreated⟩
      · rcases waiting_step h₀.toSteady hflushes hstep b q with
          hsame | hnone | ⟨s, admitted, t, message, he, haccepted, hmerged⟩
        · rw [hsame]
          exact hmono b q _ (h₀.waits b q)
        · rw [hnone]
          exact hkeep b q
        · rw [hmerged]
          exact hreport s admitted t b q message he haccepted _ (h₀.waits b q)
      · rcases inFlight_step himmediates (hfresh b)
          fun job hjob => (h₀.snapshots b job hjob).2 with hsame | hnone
        · rw [hsame]
          exact hmono b q _ (h₀.running b q)
        · rw [hnone]
          exact hkeep b q

theorem Steady.publishInventory (hsteady : h.Steady) (m : InventoryMessage) :
    (h.publishInventory m).Steady := by
  obtain ⟨out, timers, pendingInventory, -, heq, -⟩ := publishInventory_spec hsteady.toSound m
  rw [heq]
  exact ⟨(hsteady.deliver out).flushing _ _ _ _ _, hsteady.registered, hsteady.scheduled⟩

/-- A report that is published is added to what waits. -/
theorem Sourced.publishInventory (h₀ : h.Sourced C) (hmono : ∀ b q o, C b q o → C' b q o)
    {m : InventoryMessage}
    (hm : ∀ o, C m.broadcastId m.peerId o → C' m.broadcastId m.peerId (o.andThen m.effect)) :
    (h.publishInventory m).Sourced C' := by
  obtain ⟨out, timers, pendingInventory, -, heq, -⟩ := publishInventory_spec h₀.toSound m
  have hflight : ∀ b q, (h.publishInventory m).inFlight b q = h.inFlight b q := by
    intro b q
    rw [heq]
    rfl
  refine ⟨h₀.toSteady.publishInventory m, ?_, fun b q => ?_, fun b q => ?_⟩
  · rw [heq]
    exact h₀.snapshots
  · rcases waiting_publishInventory h₀.toSound m b q with hsame | ⟨rfl, rfl, hmerged⟩
    · rw [hsame]
      exact hmono b q _ (h₀.waits b q)
    · rw [hmerged]
      exact hm _ (h₀.waits _ _)
  · rw [hflight]
    exact hmono b q _ (h₀.running b q)

/-- What a flush sends has the source of what waited or was being sent. -/
theorem Sourced.sends (h₀ : h.Sourced C)
    (hP : ∀ b (batch : List SegmentInventoryUpdate),
      (∀ u ∈ batch, C b u.peerId (u.effect u.peerId)) → P (.segmentInventoryBatch b batch))
    (heff : FlushEffect h h') : Sends P h h' := by
  refine heff.sends (fun b job hjob hcurrent batch hbatch => hP b batch fun u hu => ?_)
    fun b pending hget batch hbatch => hP b batch fun u hu => ?_
  · obtain ⟨q, hq⟩ := OrderedMap.mem_values_iff.mp (hbatch u hu)
    obtain rfl : u.peerId = q := (h₀.snapshots b job hjob).1 q u hq
    have hflight : h.inFlight b u.peerId = u.effect u.peerId := by
      rw [inFlight, hjob]
      dsimp only
      rw [if_pos hcurrent, updateEffect, hq]
      rfl
    exact hflight ▸ h₀.running b u.peerId
  · obtain ⟨q, hq⟩ := OrderedMap.mem_values_iff.mp (hbatch u hu)
    obtain rfl : u.peerId = q := keyed_toUpdates pending q u hq
    have hwaiting : h.waiting b u.peerId = u.effect u.peerId := by
      rw [waiting, pendingAt, hget, Option.bind_some, ← updateEffect_toUpdates, updateEffect, hq]
      rfl
    exact hwaiting ▸ h₀.waits b u.peerId

end TrackerWebSocketHub

end OpenStreamGrid
