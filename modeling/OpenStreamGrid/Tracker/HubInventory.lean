import OpenStreamGrid.Tracker.HubInvariant

/-!
# Batched inventory convergence

A neighbor-view client learns of a report with the next batch, and of a batch
when its turn in the flush comes. What a flush still has to send to it and what
is pending after that are overwrites of its copies; the invariant is that they
are all that separates a copy from the stored inventory, and that the stored
inventory has them already. Two things break it: an update in a running flush
outlives the peer it is about, and a pending update outlives a later report
that was not queued because nobody was listening.
-/

namespace OpenStreamGrid

/-! ## Pending changes as overwrites -/

def PendingInventory.effect : PendingInventory → Overwrite SegmentId
  | .replace segments => .replace segments.toList
  | .delta added removed => .delta added.toList removed.toList

theorem PendingInventory.effect_toUpdate (q : PeerId) (pending : PendingInventory) :
    (pending.toUpdate q).effect q = pending.effect := by
  cases pending <;> exact if_pos rfl

theorem keyed_toUpdates (pending : OrderedMap PeerId PendingInventory) :
    KeyedUpdates (toUpdates pending) := by
  intro q u hu
  rw [toUpdates, OrderedMap.get?_mapWithKey] at hu
  obtain ⟨change, -, rfl⟩ := Option.map_eq_some_iff.mp hu
  cases change <;> rfl

theorem mergeDelta_effect (pending : Option PendingInventory) (added removed : List SegmentId) :
    (mergePending.mergeDelta pending added removed).effect
      = ((pending.map PendingInventory.effect).getD .keep).andThen (.delta added removed) := by
  funext x
  cases pending with
  | none =>
      by_cases ha : x ∈ added <;>
        simp [mergePending.mergeDelta, PendingInventory.effect, Overwrite.delta, ha]
  | some change =>
      cases change with
      | replace segments =>
          by_cases ha : x ∈ added <;> by_cases hr : x ∈ removed <;>
            simp [mergePending.mergeDelta, PendingInventory.effect, Overwrite.delta,
              Overwrite.replace, Overwrite.andThen, ha, hr]
      | delta added' removed' =>
          by_cases ha : x ∈ added <;> by_cases hr : x ∈ removed <;>
            by_cases ha' : x ∈ added' <;>
            simp [mergePending.mergeDelta, PendingInventory.effect, Overwrite.delta,
              Overwrite.andThen, ha, hr, ha']

/-- **Merging into the batch is composing**: what was pending, then the report. -/
theorem mergePending_effect (pending : Option PendingInventory) (m : InventoryMessage) :
    (mergePending pending m).effect
      = ((pending.map PendingInventory.effect).getD .keep).andThen m.effect := by
  cases m with
  | segmentAvailable b q segments replace =>
      cases replace with
      | true =>
          funext x
          simp [mergePending, PendingInventory.effect, InventoryMessage.effect, Overwrite.replace,
            Overwrite.andThen]
      | false => exact mergeDelta_effect pending segments []
  | segmentInventoryDelta b q added removed => exact mergeDelta_effect pending added removed

namespace TrackerWebSocketHub

variable {h h' : TrackerWebSocketHub} {s : SocketId} {b : BroadcastId} {p q : PeerId}

/-! ## What is still to be sent -/

/-- The stored inventory. -/
def inventory (h : TrackerWebSocketHub) (b : BroadcastId) (q : PeerId) : Set SegmentId :=
  {x | ∃ peer, h.store.getPeer b q = some peer ∧ x ∈ peer.segments}

/-- What waits for the next batch. -/
def waiting (h : TrackerWebSocketHub) (b : BroadcastId) (q : PeerId) : Overwrite SegmentId :=
  ((h.pendingAt b q).map PendingInventory.effect).getD .keep

/-- What the running flush says of a peer; nothing once its subscribers were
replaced. -/
def inFlight (h : TrackerWebSocketHub) (b : BroadcastId) (q : PeerId) : Overwrite SegmentId :=
  match h.immediates.get? b with
  | none => .keep
  | some job => if h.isCurrent b job then updateEffect job.updates q else .keep

/-- The turn of a viewer is still to come. -/
def awaits (h : TrackerWebSocketHub) (b : BroadcastId) (p : PeerId) : Bool :=
  (h.immediates.get? b).any fun job => decide (p ∈ job.viewerIds.drop job.start)

/-- All that may still be sent about a peer. -/
def owed (h : TrackerWebSocketHub) (b : BroadcastId) (q : PeerId) : Overwrite SegmentId :=
  (h.inFlight b q).andThen (h.waiting b q)

/-- What is still to be sent to the viewer `p` about `q`. -/
def outstanding (h : TrackerWebSocketHub) (b : BroadcastId) (p q : PeerId) :
    Overwrite SegmentId :=
  if h.awaits b p then h.owed b q else h.waiting b q

/-- A copy that differs from the stored inventory at most in what is still to
be sent. -/
def UpToDate (h : TrackerWebSocketHub) (b : BroadcastId) (p q : PeerId) (copy : Set SegmentId) :
    Prop :=
  ∀ x, h.outstanding b p q x = none → (x ∈ copy ↔ x ∈ h.inventory b q)

theorem inventory_of_getPeer {peer : Peer} (hpeer : h.store.getPeer b q = some peer) :
    h.inventory b q = {x | x ∈ peer.segments} := by
  ext x
  constructor
  · rintro ⟨found, hfound, hx⟩
    exact Option.some.inj (hpeer.symm.trans hfound) ▸ hx
  · exact fun hx => ⟨peer, hpeer, hx⟩

theorem mem_inventory_iff {x : SegmentId} : x ∈ h.inventory b q ↔
    ∃ segments, (h.store.getPeer b q).map Peer.segments = some segments ∧ x ∈ segments := by
  simp [inventory]

theorem inventory_congr (hsegments : (h'.store.getPeer b q).map Peer.segments
    = (h.store.getPeer b q).map Peer.segments) : h'.inventory b q = h.inventory b q := by
  ext x
  rw [mem_inventory_iff, mem_inventory_iff, hsegments]

/-- The stored record is an up-to-date copy. -/
theorem upToDate_stored {peer : Peer} (hpeer : h.store.getPeer b q = some peer) :
    h.UpToDate b p q {x | x ∈ peer.segments} := by
  intro x _
  rw [inventory_of_getPeer hpeer]

theorem isCurrent_iff {job : FlushJob} :
    h.isCurrent b job = true ↔ h.subscribersId b = some job.subscribers := decide_eq_true_iff

theorem inFlight_congr (himmediates : h'.immediates.get? b = h.immediates.get? b)
    (hid : h'.subscribersId b = h.subscribersId b) : h'.inFlight b q = h.inFlight b q := by
  have hcurrent : ∀ job, h'.isCurrent b job = h.isCurrent b job := by
    intro job
    rw [Bool.eq_iff_iff, isCurrent_iff, isCurrent_iff, hid]
  unfold inFlight
  rw [himmediates]
  cases h.immediates.get? b with
  | none => rfl
  | some job => simp only [hcurrent]

theorem outstanding_congr (himmediates : h'.immediates.get? b = h.immediates.get? b)
    (hid : h'.subscribersId b = h.subscribersId b)
    (hwaiting : h'.waiting b q = h.waiting b q) : h'.outstanding b p q = h.outstanding b p q := by
  unfold outstanding awaits owed
  rw [inFlight_congr himmediates hid, hwaiting, himmediates]

/-! ## The property -/

/-- Where nothing is pending and no flush is running, every open neighbor-view
socket holds a copy of each stored peer in its view. -/
def InventoriesConverged (h : TrackerWebSocketHub) : Prop :=
  ∀ s sub socket, h.subscriptions.get? s = some sub → sub.neighborView = true →
    h.sockets.get? s = some socket → socket.isOpen = true →
    h.pendingInventory.get? sub.broadcastId = none → sub.broadcastId ∉ h.flushing →
    ∀ v view q peer, h.neighborViews = some v →
      v.view sub.broadcastId sub.peerId = some view → q ∈ view →
      h.store.getPeer sub.broadcastId q = some peer →
      (socket.directory sub.broadcastId).HoldsCopyOf q peer

/-- No report reaches a cap of the store. -/
def CapsNotReached (h : TrackerWebSocketHub) : HubEvent → Prop
  | .received _ _ _ (.reportSegments b q message) => ∀ peer ∈ h.store.getPeer b q,
      WithinCaps h.store.maxSegmentsPerPeer (message.merged peer.segments)
  | _ => True

/-- Nothing that is still to be sent is out of date: when an ID joins, the
running flush adds nothing to it, and a report that nobody waits for does not
contradict what is pending or being sent. -/
def NothingOutlived (h : TrackerWebSocketHub) : HubEvent → Prop
  | .joinPeer _ b request _ => h.store.getPeer b request.id = none →
      ∀ x, h.inFlight b request.id x ≠ some true
  | .received _ _ _ (.reportSegments b q message) =>
      h.queues b = false → (h.owed b q).Agree message.effect
  | _ => True

/-- Between two handlers: the stored inventories have everything that is still
to be sent, and every copy lacks nothing else. -/
structure Converging (h : TrackerWebSocketHub) : Prop extends Steady h where
  queued : ∀ b q, q ∉ h.stored b → h.pendingAt b q = none
  settled : ∀ b q, q ∈ h.stored b → (h.owed b q).Settled (h.inventory b q)
  snapshots : ∀ b job, h.immediates.get? b = some job →
    KeyedUpdates job.updates ∧ job.subscribers < h.subscribersCreated
  following : h.Following h.UpToDate fun _ _ => False

theorem Converging.converged (h₀ : h.Converging) : h.InventoriesConverged := by
  intro s sub socket hsub hview hget hopen hpending hidle v view q peer hv hsome hq hpeer
  have hs : s ∈ h.viewerSockets sub.broadcastId sub.peerId :=
    (h₀.indexed.viewers s _ _).mpr ⟨sub, hsub, hview, rfl, rfl⟩
  have hfollows := h₀.following s _ _ socket hs hget hopen
  have hshown : q ∈ h.shown sub.broadcastId sub.peerId := by
    rw [shown_of_eq hv, Set.mem_ofPred_eq, NeighborViews.viewOf_eq, hsome, Option.getD_some]
    exact hq
  obtain ⟨hmem, hcopy⟩ := hfollows.shown q hshown (Option.isSome_iff_exists.mpr ⟨peer, hpeer⟩)
  refine ⟨hmem, ?_⟩
  have hsilent : h.outstanding sub.broadcastId sub.peerId q = .keep := by
    have hnone := h₀.scheduled sub.broadcastId hidle
    have hwaiting : h.waiting sub.broadcastId q = .keep := by
      rw [waiting, pendingAt, hpending]
      rfl
    unfold outstanding awaits
    rw [hnone, hwaiting]
    rfl
  rw [← inventory_of_getPeer hpeer]
  ext x
  exact hcopy x (by rw [hsilent]; rfl)

/-! ## What a step does to one inventory -/

/-- What becomes of the stored inventory of a peer and of what is pending for it. -/
inductive InventoryChange (h h' : TrackerWebSocketHub) (e : HubEvent) (b : BroadcastId)
    (q : PeerId) : Prop where
  | gone (hq : q ∉ h'.stored b) (hnone : h'.pendingAt b q = none)
  | kept (hold : q ∈ h.stored b) (hq : q ∈ h'.stored b)
      (hpending : h'.pendingAt b q = h.pendingAt b q)
      (hinventory : h'.inventory b q = h.inventory b q)
  | joined {t : Timestamp} {request : PeerJoinRequest} {options : JoinPeerOptions}
      (he : e = .joinPeer t b request options) (hid : request.id = q)
      (habsent : h.store.getPeer b q = none) (hq : q ∈ h'.stored b)
      (hnone : h'.pendingAt b q = none) (hempty : h'.inventory b q = ∅)
  | reported {s : SocketId} {admitted : Bool} {t : Timestamp} {message : ReportSegmentsMessage}
      {m : InventoryMessage} (he : e = .received s admitted t (.reportSegments b q message))
      (hold : q ∈ h.stored b) (hq : q ∈ h'.stored b) (heffect : m.effect = message.effect)
      (hqueues : ∀ s p, s ∈ h'.viewerSockets b p → h.queues b = true)
      (hpending : h'.pendingAt b q =
        if h.queues b = true then some (mergePending (h.pendingAt b q) m) else h.pendingAt b q)
      (hinventory : h'.inventory b q = m.effect.apply (h.inventory b q))

theorem InventoryChange.of_same {e : HubEvent} (hqueued : q ∉ h.stored b → h.pendingAt b q = none)
    (hsegments : (h'.store.getPeer b q).map Peer.segments
      = (h.store.getPeer b q).map Peer.segments)
    (hpending : h'.pendingAt b q = h.pendingAt b q) : InventoryChange h h' e b q := by
  have hstored : q ∈ h'.stored b ↔ q ∈ h.stored b := by
    rw [mem_stored_iff, mem_stored_iff, ← Option.isSome_map (f := Peer.segments), hsegments,
      Option.isSome_map]
  by_cases hq : q ∈ h.stored b
  · exact .kept hq (hstored.mpr hq) hpending (inventory_congr hsegments)
  · exact .gone (mt hstored.mp hq) (hpending.trans (hqueued hq))

theorem StepEffect.inventoryChange {e : HubEvent} (heff : StepEffect h e h')
    (hsteady : h.Steady) (hcaps : h.CapsNotReached e)
    (hqueued : ∀ b q, q ∉ h.stored b → h.pendingAt b q = none) (b : BroadcastId) (q : PeerId) :
    InventoryChange h h' e b q := by
  cases heff with
  | @stored _ store hstore =>
      refine .of_same (hqueued b q) ?_ rfl
      have hq := congrArg (Option.map Prod.snd) (hstore b q)
      rwa [Option.map_map, Option.map_map] at hq
  | @joined t b₀ request options store peer habsent hid hsegments hstore =>
      have hget : store.getPeer b₀ peer.id = some peer := by
        rw [hstore, hid, if_pos ⟨rfl, rfl⟩]
      have hkept := (peerJoined_untouched { h with store := store } b₀ peer).store
      obtain ⟨h₁, out, heq, -, hpending, -⟩ := peerJoined_spec (hsteady.withPeer hid hstore) hget
      have hsame : (peerJoined { h with store := store } b₀ peer).pendingAt b q
          = h.pendingAt b q := by
        rw [heq]
        change (h₁.pendingInventory.get? b).bind _ = _
        rw [hpending]
        rfl
      by_cases hbq : b = b₀ ∧ q = request.id
      · obtain ⟨rfl, rfl⟩ := hbq
        have hnew : (peerJoined { h with store := store } b peer).store.getPeer b request.id
            = some peer := by
          rw [hkept, ← hid]
          exact hget
        refine .joined rfl rfl habsent (Option.isSome_iff_exists.mpr ⟨peer, hnew⟩)
          (hsame.trans (hqueued b _ ?_)) ?_
        · rw [mem_stored_iff, habsent]
          exact Bool.false_ne_true
        · rw [inventory_of_getPeer hnew, hsegments]
          exact Set.eq_empty_of_forall_notMem fun x => List.not_mem_nil
      · refine .of_same (hqueued b q) ?_ hsame
        rw [hkept, hstore, if_neg hbq]
  | @left _ removed store hstore =>
      have hleft := peersLeft_departed removed (hsteady.forget hstore) (not_stored_of_removed hstore)
      have hkept := (peersLeft_untouched removed { h with store := store }).store
      have hpending := hleft.pending b q
      by_cases hgone : ⟨b, q⟩ ∈ removed
      · refine .gone ?_ (hpending.trans (if_pos hgone))
        rw [mem_stored_iff, hkept, hstore, if_pos hgone]
        exact Bool.false_ne_true
      · refine .of_same (hqueued b q) ?_ (hpending.trans (if_neg hgone))
        rw [hkept, hstore, if_neg hgone]
  | @unregistered _ b₀ store hstore =>
      obtain ⟨-, -, hkept, hpending, -⟩ := broadcastRemoved_spec (hsteady.forget hstore) b₀
      have hat : (broadcastRemoved { h with store := store } b₀).pendingAt b q
          = if b = b₀ then none else h.pendingAt b q := by
        rw [pendingAt, hpending, OrderedMap.get?_delete]
        split_ifs <;> rfl
      by_cases hb : b = b₀
      · refine .gone ?_ (hat.trans (if_pos hb))
        rw [mem_stored_iff, hkept, hstore, if_pos hb]
        exact Bool.false_ne_true
      · refine .of_same (hqueued b q) ?_ (hat.trans (if_neg hb))
        rw [hkept, hstore, if_neg hb]
  | unnoticed _ _ _ hstore _ hpending =>
      exact .of_same (hqueued b q) (by rw [hstore]) (by rw [pendingAt, hpending]; rfl)
  | @subscribed _ s₀ sub peers h₁ out hh hpending =>
      refine .of_same (hqueued b q) (by rw [(subscribed_untouched ..).store, hh.store]) ?_
      obtain ⟨_, _, _, _, heq⟩ := h₁.subscribed_eq out
        [(s₀, .peerList sub.broadcastId peers)] s₀ sub
      rw [heq]
      change (h₁.pendingInventory.get? b).bind _ = _
      rw [hpending]
      rfl
  | @reported s admitted t b₀ q₀ message m store old new hb hq hold hid hsegments heffect hstore =>
      have hkept := (publishInventory_untouched { h with store := store } m).store
      have hsound := hsteady.withPeer (hid.trans (hsteady.keyed b₀ q₀ old hold)) hstore
      obtain ⟨out, timers, pendingInventory, -, heq, hpending⟩ := publishInventory_spec hsound m
      have hat := hpending b q
      rw [hb, hq] at hat
      have hat' : (publishInventory { h with store := store } m).pendingAt b q
          = if h.queues b₀ = true ∧ b = b₀ ∧ q = q₀ then
              some (mergePending (h.pendingAt b₀ q₀) m)
            else h.pendingAt b q := by
        rw [heq]
        exact hat
      by_cases hbq : b = b₀ ∧ q = q₀
      · obtain ⟨rfl, rfl⟩ := hbq
        have hnew : (publishInventory { h with store := store } m).store.getPeer b q
            = some new := by
          rw [hkept, hstore, if_pos ⟨rfl, rfl⟩]
        refine .reported rfl (Option.isSome_iff_exists.mpr ⟨old, hold⟩)
          (Option.isSome_iff_exists.mpr ⟨new, hnew⟩) heffect (fun s p hs => ?_) ?_ ?_
        · rw [heq] at hs
          exact queues_of_mem (h := h) hs
        · rw [hat']
          simp
        · have hfits := limitInventory_eq_self_iff.mpr (hcaps old hold)
          rw [inventory_of_getPeer hnew, inventory_of_getPeer hold, hsegments, hfits, heffect,
            message.apply_effect]
      · refine .of_same (hqueued b q) ?_ (hat'.trans (if_neg fun hand => hbq hand.2))
        rw [hkept, hstore, if_neg hbq]

/-! ## Steps -/

/-- Subscribers objects are never reused. -/
theorem StepEffect.subscribers {e : HubEvent} (heff : StepEffect h e h') (hsteady : h.Steady) :
    h.subscribersCreated ≤ h'.subscribersCreated ∧ ∀ b id, h'.subscribersId b = some id →
      h.subscribersId b = some id ∨ h.subscribersCreated ≤ id := by
  have hsame : ∀ h' : TrackerWebSocketHub, h'.subscribersByBroadcast = h.subscribersByBroadcast →
      h'.subscribersCreated = h.subscribersCreated →
      h.subscribersCreated ≤ h'.subscribersCreated ∧ ∀ b id, h'.subscribersId b = some id →
        h.subscribersId b = some id ∨ h.subscribersCreated ≤ id := by
    intro h' hindex hcreated
    refine ⟨hcreated.ge, fun b id hid => Or.inl ?_⟩
    rwa [subscribersId, hindex] at hid
  cases heff with
  | stored => exact hsame _ rfl rfl
  | @joined t b₀ request options store peer habsent hid hsegments hstore =>
      have hget : store.getPeer b₀ peer.id = some peer := by
        rw [hstore, hid, if_pos ⟨rfl, rfl⟩]
      obtain ⟨h₁, out, heq, hh, -⟩ := peerJoined_spec (hsteady.withPeer hid hstore) hget
      rw [heq]
      exact hsame _ hh.index hh.created
  | @left _ removed store hstore =>
      have hleft := peersLeft_departed removed (hsteady.forget hstore) (not_stored_of_removed hstore)
      exact hsame _ hleft.index hleft.created
  | @unregistered _ b₀ store hstore =>
      obtain ⟨-, hu, -⟩ := broadcastRemoved_spec (hsteady.forget hstore) b₀
      exact ⟨hu.created, fun b id hid => (hu.fresh b id hid).imp_right And.left⟩
  | unnoticed _ _ hu =>
      exact ⟨hu.created, fun b id hid => (hu.fresh b id hid).imp_right And.left⟩
  | @subscribed _ s₀ sub peers h₁ out hh =>
      obtain ⟨hbut, -⟩ := setSubscription_spec (hsteady.handled hh).indexed s₀ sub
      have hcreated : (h₁.deliver out).subscribersCreated = h.subscribersCreated := hh.created
      have hid : ∀ b, (h₁.deliver out).subscribersId b = h.subscribersId b := by
        intro b
        change h₁.subscribersId b = _
        rw [subscribersId, hh.index]
        rfl
      refine ⟨hcreated ▸ hbut.created, fun b id hnew => ?_⟩
      rcases hbut.fresh b id hnew with hold | ⟨hfresh, -⟩
      · exact Or.inl (hid b ▸ hold)
      · exact Or.inr (hcreated ▸ hfresh)
  | @reported _ _ _ b₀ q₀ _ m store old new _ _ hold hid _ _ hstore =>
      have hsound := hsteady.withPeer (hid.trans (hsteady.keyed b₀ q₀ old hold)) hstore
      obtain ⟨out, timers, pendingInventory, -, heq, -⟩ := publishInventory_spec hsound m
      rw [heq]
      exact hsame _ rfl rfl

/-- A running flush stays what it is or is abandoned. -/
theorem inFlight_step (himmediates : h'.immediates = h.immediates)
    (hfresh : ∀ id, h'.subscribersId b = some id →
      h.subscribersId b = some id ∨ h.subscribersCreated ≤ id)
    (hknown : ∀ job, h.immediates.get? b = some job → job.subscribers < h.subscribersCreated) :
    h'.inFlight b q = h.inFlight b q ∨ h'.inFlight b q = .keep := by
  cases hjob : h.immediates.get? b with
  | none =>
      refine Or.inr ?_
      rw [inFlight, himmediates, hjob]
  | some job =>
      by_cases hcurrent : h'.isCurrent b job = true
      · refine Or.inl (inFlight_congr (by rw [himmediates]) ?_)
        have hid := isCurrent_iff.mp hcurrent
        rcases hfresh _ hid with hold | hnew
        · exact hid.trans hold.symm
        · have := hknown job hjob
          omega
      · refine Or.inr ?_
        rw [inFlight, himmediates, hjob]
        exact if_neg hcurrent

theorem waiting_of_merge {m : InventoryMessage} {h h' : TrackerWebSocketHub}
    (hpending : h'.pendingAt b q = some (mergePending (h.pendingAt b q) m)) :
    h'.waiting b q = (h.waiting b q).andThen m.effect := by
  rw [waiting, hpending, Option.map_some, Option.getD_some, mergePending_effect]
  rfl

theorem waiting_congr (hpending : h'.pendingAt b q = h.pendingAt b q) :
    h'.waiting b q = h.waiting b q := by
  unfold waiting
  rw [hpending]

theorem Converging.settled_step {e : HubEvent} (h₀ : h.Converging) (hok : h.NothingOutlived e)
    (hchange : InventoryChange h h' e b q)
    (hflight : h'.inFlight b q = h.inFlight b q ∨ h'.inFlight b q = .keep)
    (hq : q ∈ h'.stored b) : (h'.owed b q).Settled (h'.inventory b q) := by
  cases hchange with
  | gone hnot => exact absurd hq hnot
  | kept hold _ hpending hinventory =>
      have hsettled := h₀.settled b q hold
      rw [hinventory, owed, waiting_congr hpending]
      rcases hflight with hsame | hnone
      · rw [hsame]
        exact hsettled
      · rw [hnone, Overwrite.keep_andThen]
        exact hsettled.of_andThen
  | @joined t request options he hid habsent _ hnone hempty =>
      subst he hid
      have hwaiting : h'.waiting b request.id = .keep := by
        rw [waiting, hnone]
        rfl
      rw [hempty, owed, hwaiting, Overwrite.andThen_keep]
      rcases hflight with hsame | hkeep
      · rw [hsame]
        intro x v hx
        refine iff_of_false (Set.notMem_empty x) ?_
        rintro rfl
        exact hok habsent x hx
      · rw [hkeep]
        exact Overwrite.settled_keep ∅
  | @reported s admitted t message m he hold _ heffect hqueues hpending hinventory =>
      subst he
      have hsettled := h₀.settled b q hold
      rw [hinventory, owed]
      by_cases hqueue : h.queues b = true
      · rw [if_pos hqueue] at hpending
        rw [waiting_of_merge hpending]
        rcases hflight with hsame | hkeep
        · rw [hsame, ← Overwrite.andThen_assoc]
          exact hsettled.andThen
        · rw [hkeep, Overwrite.keep_andThen]
          exact hsettled.of_andThen.andThen
      · rw [if_neg hqueue] at hpending
        have hagree := hok (Bool.not_eq_true _ ▸ hqueue)
        rw [← heffect] at hagree
        have hkept := hsettled.apply_of_agree hagree
        rw [waiting_congr hpending]
        rcases hflight with hsame | hkeep
        · rw [hsame]
          exact hkept
        · rw [hkeep, Overwrite.keep_andThen]
          exact hkept.of_andThen

/-- An up-to-date copy stays one while nothing is sent. -/
theorem UpToDate.step {e : HubEvent} {copy : Set SegmentId} (hcopy : h.UpToDate b p q copy)
    (hchange : InventoryChange h h' e b q) (himmediates : h'.immediates = h.immediates)
    (hid : h'.subscribersId b = h.subscribersId b) (hs : s ∈ h'.viewerSockets b p)
    (hold : q ∈ h.stored b) (hq : q ∈ h'.stored b) : h'.UpToDate b p q copy := by
  have hget : h'.immediates.get? b = h.immediates.get? b := by rw [himmediates]
  cases hchange with
  | gone hnot => exact absurd hq hnot
  | kept _ _ hpending hinventory =>
      intro x hx
      rw [outstanding_congr hget hid (waiting_congr hpending)] at hx
      rw [hinventory]
      exact hcopy x hx
  | joined _ _ habsent =>
      rw [mem_stored_iff, habsent] at hold
      cases hold
  | @reported _ _ _ _ m _ _ _ _ hqueues hpending hinventory =>
      rw [if_pos (hqueues s p hs)] at hpending
      have hmore : h'.outstanding b p q = (h.outstanding b p q).andThen m.effect := by
        unfold outstanding awaits owed
        rw [inFlight_congr hget hid, waiting_of_merge hpending, hget]
        split_ifs
        · exact (Overwrite.andThen_assoc _ _ _).symm
        · rfl
      intro x hx
      rw [hmore, Overwrite.andThen_eq_none] at hx
      rw [hinventory, Overwrite.mem_apply_of_none hx.2]
      exact hcopy x hx.1

theorem Converging.step {e : HubEvent} (h₀ : h.Converging) (hcaps : h.CapsNotReached e)
    (hok : h.NothingOutlived e) (heff : StepEffect h e h') : h'.Converging := by
  have hchange := heff.inventoryChange h₀.toSteady hcaps h₀.queued
  obtain ⟨himmediates, -⟩ := heff.scheduling
  obtain ⟨hcreated, hfresh⟩ := heff.subscribers h₀.toSteady
  refine ⟨heff.steady h₀.toSteady, fun b q hq => ?_, fun b q hq => ?_, fun b job hjob => ?_, ?_⟩
  · cases hchange b q with
    | gone _ hnone => exact hnone
    | kept _ hmem => exact absurd hmem hq
    | joined _ _ _ hmem => exact absurd hmem hq
    | reported _ _ hmem => exact absurd hmem hq
  · exact h₀.settled_step hok (hchange b q)
      (inFlight_step himmediates (hfresh b) fun job hjob => (h₀.snapshots b job hjob).2) hq
  · rw [himmediates] at hjob
    obtain ⟨hkeyed, hknown⟩ := h₀.snapshots b job hjob
    exact ⟨hkeyed, hknown.trans_le hcreated⟩
  · exact heff.following h₀.toSteady h₀.following (fun _ _ _ _ => upToDate_stored)
      (fun _ _ _ _ => upToDate_stored) (fun _ _ => False.elim)
      (fun s b p q copy hs hid hold hq hcopy =>
        hcopy.step (hchange b q) himmediates hid hs hold hq)
      fun _ _ _ _ _ _ _ => False.elim

/-! ## Flushes -/

theorem pendingAt_taken (h : TrackerWebSocketHub) (b : BroadcastId) (out : Outgoing)
    (b' : BroadcastId) (q : PeerId) :
    ((h.taken b).deliver out).pendingAt b' q = if b' = b then none else h.pendingAt b' q := by
  change ((h.pendingInventory.delete b).get? b').bind _ = _
  rw [OrderedMap.get?_delete]
  split_ifs <;> rfl

theorem inFlight_of_none (hnone : h.immediates.get? b = none) : h.inFlight b q = .keep := by
  rw [inFlight, hnone]

theorem outstanding_of_none (hnone : h.immediates.get? b = none) :
    h.outstanding b p q = h.waiting b q := by
  unfold outstanding awaits
  rw [hnone]
  rfl

theorem Converging.ends (h₀ : h.Converging) {out : Outgoing} (hb : b ∉ h.flushing)
    (hquiet : h.Quiet out)
    (hend : (∀ q, h.pendingAt b q = none) ∨ ∀ s p, s ∉ h.viewerSockets b p) :
    ((h.taken b).deliver out).Converging := by
  have hnone := h₀.scheduled b hb
  refine ⟨steady_flush.ends h b out h₀.toSteady hb hquiet hend, fun b' q hq => ?_,
    fun b' q hq => ?_, h₀.snapshots, ?_⟩
  · rw [pendingAt_taken]
    split_ifs
    · rfl
    · exact h₀.queued b' q hq
  · by_cases hbb : b' = b
    · subst hbb
      have hwaiting : ((h.taken b').deliver out).waiting b' q = .keep := by
        rw [waiting, pendingAt_taken, if_pos rfl]
        rfl
      rw [owed, inFlight_of_none (h := (h.taken b').deliver out) hnone, hwaiting]
      exact Overwrite.settled_keep _
    · have hpending : ((h.taken b).deliver out).pendingAt b' q = h.pendingAt b' q := by
        rw [pendingAt_taken, if_neg hbb]
      rw [owed, waiting_congr hpending]
      exact h₀.settled b' q hq
  · refine h₀.following.mono (.fanOut hquiet _ _ _ _ _) (fun s b' p hs q hq hqs => ?_)
      fun _ _ _ _ _ _ _ => False.elim
    refine ⟨hq, hqs, fun copy hcopy x hx => hcopy x ?_⟩
    have hwaiting : ((h.taken b).deliver out).waiting b' q = h.waiting b' q := by
      refine waiting_congr ?_
      rw [pendingAt_taken]
      split_ifs with hbb
      · rcases hend with hall | hgone
        · exact (hbb ▸ hall q).symm
        · exact absurd (hbb ▸ hs) (hgone s p)
      · rfl
    have hsame : ((h.taken b).deliver out).outstanding b' p q = h.outstanding b' p q :=
      outstanding_congr rfl rfl hwaiting
    rwa [hsame] at hx

theorem updateEffect_toUpdates (pending : OrderedMap PeerId PendingInventory) (q : PeerId) :
    updateEffect (toUpdates pending) q
      = ((pending.get? q).map PendingInventory.effect).getD .keep := by
  rw [updateEffect, toUpdates, OrderedMap.get?_mapWithKey]
  cases pending.get? q with
  | none => rfl
  | some change => exact change.effect_toUpdate q

/-- The changes that were pending for a broadcast are the snapshot of a flush. -/
structure SnapshotTaken (b : BroadcastId) (pending : OrderedMap PeerId PendingInventory)
    (subscribers : BroadcastSubscribers) (h h' : TrackerWebSocketHub) : Prop where
  remaining : ∀ b' q, h'.pendingAt b' q = if b' = b then none else h.pendingAt b' q
  index : h'.subscribersByBroadcast = h.subscribersByBroadcast
  next : h'.immediates.get? b = some (snapshot pending subscribers)
  others : ∀ b', b' ≠ b → h'.immediates.get? b' = h.immediates.get? b'

theorem snapshotTaken (h : TrackerWebSocketHub) (b : BroadcastId) (out : Outgoing)
    (pending : OrderedMap PeerId PendingInventory) (subscribers : BroadcastSubscribers) :
    SnapshotTaken b pending subscribers h { (h.taken b).deliver out with
      flushing := h.flushing.insert b
      immediates := h.immediates.set b (snapshot pending subscribers) } where
  remaining := h.pendingAt_taken b out
  index := rfl
  next := (OrderedMap.get?_set ..).trans (if_pos rfl)
  others _ hne := (OrderedMap.get?_set ..).trans (if_neg hne)

section Snapshot

variable {pending : OrderedMap PeerId PendingInventory} {subscribers : BroadcastSubscribers}
  (ht : SnapshotTaken b pending subscribers h h')
include ht

theorem SnapshotTaken.subscribersId (b' : BroadcastId) :
    h'.subscribersId b' = h.subscribersId b' := by
  rw [TrackerWebSocketHub.subscribersId, ht.index]
  rfl

theorem SnapshotTaken.waiting (q : PeerId) : h'.waiting b q = .keep := by
  rw [TrackerWebSocketHub.waiting, ht.remaining, if_pos rfl]
  rfl

/-- The snapshot takes over what was waiting. -/
theorem SnapshotTaken.inFlight (hpending : h.pendingInventory.get? b = some pending)
    (hsubscribers : h.subscribersByBroadcast.get? b = some subscribers) (q : PeerId) :
    h'.inFlight b q = h.waiting b q := by
  have hcurrent : h'.isCurrent b (snapshot pending subscribers) = true := by
    rw [isCurrent_iff, ht.subscribersId, TrackerWebSocketHub.subscribersId, hsubscribers]
    rfl
  rw [TrackerWebSocketHub.inFlight, ht.next]
  dsimp only
  rw [if_pos hcurrent, TrackerWebSocketHub.waiting, pendingAt, hpending]
  exact updateEffect_toUpdates pending q

theorem SnapshotTaken.waiting_of_ne {b' : BroadcastId} (hne : b' ≠ b) (q : PeerId) :
    h'.waiting b' q = h.waiting b' q :=
  waiting_congr ((ht.remaining b' q).trans (if_neg hne))

theorem SnapshotTaken.inFlight_of_ne {b' : BroadcastId} (hne : b' ≠ b) (q : PeerId) :
    h'.inFlight b' q = h.inFlight b' q :=
  inFlight_congr (ht.others b' hne) (ht.subscribersId b')

end Snapshot

theorem Converging.starts (h₀ : h.Converging) {out : Outgoing}
    {pending : OrderedMap PeerId PendingInventory} {subscribers : BroadcastSubscribers}
    (hb : b ∉ h.flushing) (hquiet : h.Quiet out)
    (hpending : h.pendingInventory.get? b = some pending)
    (hsubscribers : h.subscribersByBroadcast.get? b = some subscribers) :
    Converging { (h.taken b).deliver out with
      flushing := h.flushing.insert b
      immediates := h.immediates.set b (snapshot pending subscribers) } := by
  have hsteady := steady_flush.starts h b out pending subscribers h₀.toSteady hb hquiet hpending
    hsubscribers
  have hnone := h₀.scheduled b hb
  have hid : h.subscribersId b = some subscribers.id := by
    rw [subscribersId, hsubscribers, Option.map_some]
  have ht := h.snapshotTaken b out pending subscribers
  set next : TrackerWebSocketHub := { (h.taken b).deliver out with
      flushing := h.flushing.insert b
      immediates := h.immediates.set b (snapshot pending subscribers) } with hnext
  have howed : ∀ q, next.owed b q = h.waiting b q := by
    intro q
    rw [owed, ht.inFlight hpending hsubscribers, ht.waiting, Overwrite.andThen_keep]
  refine ⟨hsteady, fun b' q hq => ?_, fun b' q hq => ?_, fun b' job hget => ?_, ?_⟩
  · rw [ht.remaining]
    split_ifs
    · rfl
    · exact h₀.queued b' q hq
  · have hsettled := h₀.settled b' q hq
    by_cases hbb : b' = b
    · subst hbb
      rw [owed, inFlight_of_none hnone, Overwrite.keep_andThen] at hsettled
      rw [howed]
      exact hsettled
    · rw [owed, ht.inFlight_of_ne hbb, ht.waiting_of_ne hbb]
      exact hsettled
  · by_cases hbb : b' = b
    · subst hbb
      obtain rfl := Option.some.inj (ht.next.symm.trans hget)
      exact ⟨keyed_toUpdates pending, h₀.indexed.created b' subscribers.id hid⟩
    · exact h₀.snapshots b' job ((ht.others b' hbb).symm.trans hget)
  · refine h₀.following.mono (.fanOut hquiet _ _ _ _ _) (fun s b' p hs q hq hqs => ?_)
      fun _ _ _ _ _ _ _ => False.elim
    refine ⟨hq, hqs, fun copy hcopy x hx => hcopy x ?_⟩
    by_cases hbb : b' = b
    · subst hbb
      -- whoever has a socket is among the viewers of the snapshot
      have hviewer : p ∈ subscribers.viewers.keys := by
        rw [← OrderedMap.mem_iff_mem_keys]
        by_contra hnot
        change s ∈ ((h.subscribersByBroadcast.get? b').bind fun s => s.viewers.get? p).getD ∅ at hs
        rw [hsubscribers, Option.bind_some, OrderedMap.get?_eq_none_iff.mpr hnot] at hs
        exact OrderedSet.not_mem_empty s hs
      have hawaits : next.awaits b' p = true := by
        rw [awaits, ht.next, Option.any_some, decide_eq_true_eq]
        exact hviewer
      rw [outstanding, if_pos hawaits, howed] at hx
      rw [outstanding_of_none hnone]
      exact hx
    · have hsame : next.outstanding b' p q = h.outstanding b' p q :=
        outstanding_congr (ht.others b' hbb) (ht.subscribersId b') (ht.waiting_of_ne hbb q)
      rwa [hsame] at hx

/-- A turn serves the front of what remains. -/
theorem mem_drop_iff_of_turn (viewerIds : List PeerId) (start perTurn : ℕ) :
    p ∈ viewerIds.drop start ↔
      p ∈ (viewerIds.take (min (start + perTurn) viewerIds.length)).drop start ∨
        p ∈ viewerIds.drop (min (start + perTurn) viewerIds.length) := by
  have htake : viewerIds.take (min (start + perTurn) viewerIds.length)
      = viewerIds.take (start + perTurn) := by
    rcases le_total (start + perTurn) viewerIds.length with hle | hle
    · rw [min_eq_left hle]
    · rw [min_eq_right hle, List.take_length, List.take_of_length_le hle]
  have hdrop : viewerIds.drop (min (start + perTurn) viewerIds.length)
      = viewerIds.drop (start + perTurn) := by
    rcases le_total (start + perTurn) viewerIds.length with hle | hle
    · rw [min_eq_left hle]
    · rw [min_eq_right hle, List.drop_length, List.drop_of_length_le hle]
  rw [htake, hdrop, List.drop_take, Nat.add_sub_cancel_left, ← List.drop_drop, ← List.mem_append,
    List.take_append_drop]

/-- What a turn leaves scheduled. -/
def nextJob (h : TrackerWebSocketHub) (b : BroadcastId) (job : FlushJob) : Option FlushJob :=
  if h.isCurrent b job = true ∧ h.sliceEnd b job < job.viewerIds.length then
    some { job with start := h.sliceEnd b job }
  else none

/-- A turn of the flush `job` was taken. -/
structure TurnTaken (b : BroadcastId) (job : FlushJob) (h h' : TrackerWebSocketHub) : Prop where
  store : h'.store = h.store
  pending : h'.pendingInventory = h.pendingInventory
  index : h'.subscribersByBroadcast = h.subscribersByBroadcast
  created : h'.subscribersCreated = h.subscribersCreated
  next : h'.immediates.get? b = h.nextJob b job
  others : ∀ b', b' ≠ b → h'.immediates.get? b' = h.immediates.get? b'

theorem sendSlice_turnTaken {job : FlushJob} {immediates : OrderedMap BroadcastId FlushJob}
    (hnone : immediates.get? b = none)
    (hothers : ∀ b', b' ≠ b → immediates.get? b' = h.immediates.get? b') :
    TurnTaken b job h ({ h with immediates := immediates }.sendSlice b job).1 := by
  obtain ⟨sockets, ⟨hmore, heq⟩ | ⟨hmore, heq⟩⟩ :=
    sendSlice_cases { h with immediates := immediates } b job
  · rw [heq]
    refine ⟨rfl, rfl, rfl, rfl, ?_, fun b' hne => ?_⟩
    · exact (OrderedMap.get?_set ..).trans ((if_pos rfl).trans (if_pos hmore).symm)
    · exact (OrderedMap.get?_set ..).trans ((if_neg hne).trans (hothers b' hne))
  · rw [heq]
    exact ⟨rfl, rfl, rfl, rfl, hnone.trans (if_neg hmore).symm, hothers⟩

section Turn

variable {job : FlushJob} (ht : TurnTaken b job h h')
include ht

theorem TurnTaken.subscribersId (b' : BroadcastId) :
    h'.subscribersId b' = h.subscribersId b' := by
  rw [TrackerWebSocketHub.subscribersId, ht.index]
  rfl

theorem TurnTaken.waiting (b' : BroadcastId) (q : PeerId) :
    h'.waiting b' q = h.waiting b' q := by
  rw [TrackerWebSocketHub.waiting, pendingAt, ht.pending]
  rfl

theorem TurnTaken.inventory (b' : BroadcastId) (q : PeerId) :
    h'.inventory b' q = h.inventory b' q := inventory_congr (by rw [ht.store])

/-- What is scheduled next is the same snapshot. -/
theorem TurnTaken.isCurrent (hcurrent : h.isCurrent b job = true) :
    h'.isCurrent b { job with start := h.sliceEnd b job } = true :=
  isCurrent_iff.mpr ((ht.subscribersId b).trans (isCurrent_iff.mp hcurrent))

theorem TurnTaken.inFlight (hjob : h.immediates.get? b = some job) (q : PeerId) :
    h'.inFlight b q = h.inFlight b q ∨ h'.immediates.get? b = none := by
  have hnext := ht.next
  rw [nextJob] at hnext
  split_ifs at hnext with hmore
  · refine Or.inl ?_
    rw [TrackerWebSocketHub.inFlight, TrackerWebSocketHub.inFlight, hnext, hjob]
    exact (if_pos (ht.isCurrent hmore.1)).trans (if_pos hmore.1).symm
  · exact Or.inr hnext

/-- Whoever is not served in a turn is owed the same after it. -/
theorem TurnTaken.outstanding (hjob : h.immediates.get? b = some job)
    (hserved : p ∉ h.served b job) : h'.outstanding b p q = h.outstanding b p q := by
  have hawaits : h.awaits b p = decide (p ∈ job.viewerIds.drop job.start) := by
    rw [awaits, hjob, Option.any_some]
  have hnext := ht.next
  by_cases hcurrent : h.isCurrent b job = true
  · have hstop : h.sliceEnd b job = min (job.start + h.viewersPerFlushTurn) job.viewerIds.length :=
      if_pos hcurrent
    have hturn := mem_drop_iff_of_turn (p := p) job.viewerIds job.start h.viewersPerFlushTurn
    rw [← hstop] at hturn
    have hlater : p ∈ job.viewerIds.drop job.start ↔ p ∈ job.viewerIds.drop (h.sliceEnd b job) :=
      hturn.trans (or_iff_right hserved)
    rw [nextJob] at hnext
    split_ifs at hnext with hmore
    · have hflight : h'.inFlight b q = h.inFlight b q :=
        (ht.inFlight hjob q).resolve_right (by rw [hnext]; exact Option.some_ne_none _)
      have hawaits' : h'.awaits b p = h.awaits b p := by
        rw [hawaits, awaits, hnext, Option.any_some, decide_eq_decide]
        exact hlater.symm
      rw [TrackerWebSocketHub.outstanding, TrackerWebSocketHub.outstanding, owed, owed, hawaits',
        hflight, ht.waiting]
    · have hall : job.viewerIds.length ≤ h.sliceEnd b job :=
        not_lt.mp fun hlt => hmore ⟨hcurrent, hlt⟩
      have hdone : ¬ h.awaits b p = true := by
        rw [hawaits, decide_eq_true_eq, hlater, List.drop_of_length_le hall]
        exact List.not_mem_nil
      rw [outstanding_of_none hnext, TrackerWebSocketHub.outstanding, if_neg hdone, ht.waiting]
  · have hflight : h.inFlight b q = .keep := by
      rw [TrackerWebSocketHub.inFlight, hjob]
      exact if_neg hcurrent
    have hover : h'.immediates.get? b = none := hnext.trans (if_neg fun hmore => hcurrent hmore.1)
    rw [outstanding_of_none hover, TrackerWebSocketHub.outstanding, owed, hflight,
      Overwrite.keep_andThen, ite_self, ht.waiting]

/-- **A turn of the flush.** The viewers it serves are brought up to date with
the snapshot; the others wait as before. -/
theorem TurnTaken.upToDate (h₀ : h.Converging) (hjob : h.immediates.get? b = some job)
    (hq : q ∈ h.stored b) {copy : Set SegmentId} (hcopy : h.UpToDate b p q copy) :
    h'.UpToDate b p q
      ((if p ∈ h.served b job then updateEffect job.updates q else .keep).apply copy) := by
  intro x hx
  rw [ht.inventory]
  by_cases hserved : p ∈ h.served b job
  · have hcurrent : h.isCurrent b job = true := by
      by_contra hnot
      rw [served, sliceEnd, if_neg hnot, List.drop_take, Nat.sub_self, List.take_zero] at hserved
      exact List.not_mem_nil hserved
    have hflight : h.inFlight b q = updateEffect job.updates q := by
      rw [TrackerWebSocketHub.inFlight, hjob]
      exact if_pos hcurrent
    have hawaits : h.awaits b p = true := by
      rw [awaits, hjob, Option.any_some, decide_eq_true_eq]
      exact ((List.take_sublist _ _).drop _).subset hserved
    have hsilent : h.waiting b q x = none := by
      rw [← ht.waiting]
      unfold TrackerWebSocketHub.outstanding owed at hx
      split_ifs at hx
      · exact (Overwrite.andThen_eq_none.mp hx).2
      · exact hx
    have hsettled := h₀.settled b q hq
    rw [owed, hflight] at hsettled
    rw [if_pos hserved]
    refine hsettled.mem_apply_iff (fun y hy => hcopy y ?_) hsilent
    rw [TrackerWebSocketHub.outstanding, if_pos hawaits, owed, hflight]
    exact hy
  · rw [if_neg hserved, Overwrite.apply_keep]
    refine hcopy x ?_
    rwa [ht.outstanding hjob hserved] at hx

end Turn

theorem Converging.slice (h₀ : h.Converging) {job : FlushJob}
    {immediates : OrderedMap BroadcastId FlushJob} (hjob : h.immediates.get? b = some job)
    (hnone : immediates.get? b = none)
    (hothers : ∀ b', b' ≠ b → immediates.get? b' = h.immediates.get? b') :
    ({ h with immediates := immediates }.sendSlice b job).1.Converging := by
  have hsteady := steady_flush.slice h b job immediates h₀.toSteady hjob hnone hothers
  have hsound : Sound { h with immediates := immediates } := h₀.flushing _ _ _ _ _
  have ht : TurnTaken b job h _ := sendSlice_turnTaken hnone hothers
  obtain ⟨hkeyed, hknown⟩ := h₀.snapshots b job hjob
  refine ⟨hsteady, fun b' q hq => ?_, fun b' q hq => ?_, fun b' job' hjob' => ?_, ?_⟩
  · rw [mem_stored_iff, ht.store] at hq
    rw [pendingAt, ht.pending]
    exact h₀.queued b' q hq
  · rw [mem_stored_iff, ht.store] at hq
    have hsettled := h₀.settled b' q hq
    rw [owed, ht.inventory, ht.waiting]
    by_cases hbb : b' = b
    · subst hbb
      rcases ht.inFlight hjob q with hsame | hover
      · rw [hsame]
        exact hsettled
      · rw [inFlight_of_none hover, Overwrite.keep_andThen]
        exact hsettled.of_andThen
    · rw [inFlight_congr (ht.others b' hbb) (ht.subscribersId b')]
      exact hsettled
  · rw [ht.created]
    by_cases hbb : b' = b
    · subst hbb
      have hnext := ht.next
      rw [hjob', nextJob] at hnext
      split_ifs at hnext
      obtain rfl := Option.some.inj hnext
      exact ⟨hkeyed, hknown⟩
    · exact h₀.snapshots b' job' ((ht.others b' hbb).symm.trans hjob')
  · refine Following.sendSlice (h := { h with immediates := immediates }) h₀.following hsound b job
      _ fun b' p q hq effect heffect copy hcopy => ?_
    rw [heffect hkeyed]
    by_cases hbb : b' = b
    · subst hbb
      have hup := ht.upToDate h₀ hjob hq hcopy
      by_cases hserved : p ∈ h.served b' job
      · rw [if_pos hserved] at hup
        rwa [if_pos ⟨rfl, hserved⟩]
      · rw [if_neg hserved] at hup
        rwa [if_neg fun hand => hserved hand.2]
    · rw [if_neg fun hand => hbb hand.1.symm, Overwrite.apply_keep]
      intro x hx
      rw [outstanding_congr (ht.others b' hbb) (ht.subscribersId b') (ht.waiting b' q)] at hx
      rw [ht.inventory]
      exact hcopy x hx

theorem converging_flush : FlushInvariant Converging where
  steady _ h₀ := h₀.toSteady
  waits h _ _ h₀ := ⟨steady_flush.waits h _ _ h₀.toSteady, h₀.queued, h₀.settled, h₀.snapshots,
    h₀.following⟩
  ends _ _ _ h₀ hb hquiet hend := h₀.ends hb hquiet hend
  starts _ _ _ _ _ h₀ hb hquiet hpending hsubscribers :=
    h₀.starts hb hquiet hpending hsubscribers
  slice _ _ _ _ h₀ hjob hnone hothers := h₀.slice hjob hnone hothers

/-- **Batched inventory convergence**: in every run that reaches no cap, joins no
ID to which a running flush would add segments, and stores no report that
contradicts a pending update without queueing it, every copy of a stored peer in
view is exact whenever nothing is pending and no flush is running. -/
theorem inventories_converge
    (hr : system.Reachable (fun h e => h.CapsNotReached e ∧ h.NothingOutlived e) h) :
    h.InventoriesConverged := by
  refine Converging.converged (hr.invariant Converging ?_ ?_)
  · rintro h ⟨perTurn, size, random, store, rfl, hkeyed⟩
    refine ⟨steady_new perTurn size random hkeyed, fun _ _ _ => rfl, fun b q _ => ?_,
      fun b job hjob => (nomatch hjob), ?_⟩
    · exact Overwrite.settled_keep _
    · exact fun s b p socket hs => absurd hs (OrderedSet.not_mem_empty s)
  · rintro h e h' h₀ ⟨hcaps, hok⟩ hstep
    rcases step_effect h₀.toSound hstep with heff | hflush
    · exact h₀.step hcaps hok heff
    · exact converging_flush.step h₀ hflush

/-! ## Two runs -/

instance (h : TrackerWebSocketHub) : ∀ e, Decidable (h.CapsNotReached e)
  | .received _ _ _ (.reportSegments _ _ _) => inferInstanceAs (Decidable (∀ _ ∈ _, _))
  | .received _ _ _ (.subscribe _ _ _) | .joinPeer _ _ _ _ | .registerBroadcast _ _
  | .unregisterBroadcast _ | .leavePeer _ _ | .removeStalePeers _ _ | .heartbeat _ _ _ _
  | .reportStats _ _ _ _ | .connected _ _ | .closing _ | .closed _ | .batchTimer _
  | .flushTurn _ => isTrue trivial

/-- A condition that can be evaluated: no update of a joining ID is in the
running flush, and every report is queued. -/
def Undisturbed (h : TrackerWebSocketHub) : HubEvent → Prop
  | .joinPeer _ b request _ => ∀ job ∈ h.immediates.get? b, request.id ∉ job.updates
  | .received _ _ _ (.reportSegments b _ _) => h.queues b = true
  | _ => True

instance (h : TrackerWebSocketHub) : ∀ e, Decidable (h.Undisturbed e)
  | .joinPeer _ _ _ _ => inferInstanceAs (Decidable (∀ _ ∈ _, _))
  | .received _ _ _ (.reportSegments _ _ _) => inferInstanceAs (Decidable (_ = true))
  | .received _ _ _ (.subscribe _ _ _) | .registerBroadcast _ _ | .unregisterBroadcast _
  | .leavePeer _ _ | .removeStalePeers _ _ | .heartbeat _ _ _ _ | .reportStats _ _ _ _
  | .connected _ _ | .closing _ | .closed _ | .batchTimer _ | .flushTurn _ => isTrue trivial

theorem Undisturbed.nothingOutlived {e : HubEvent} (hcalm : h.Undisturbed e) :
    h.NothingOutlived e := by
  unfold NothingOutlived
  split
  · rename_i _ b request _
    intro _ x
    unfold inFlight
    cases hjob : h.immediates.get? b with
    | none => rintro ⟨⟩
    | some job =>
        have hnone := OrderedMap.get?_eq_none_iff.mpr (hcalm job hjob)
        dsimp only
        rw [updateEffect, hnone]
        split_ifs <;> rintro ⟨⟩
  · rename_i _ _ _ b q message
    exact fun hquiet => absurd (hquiet.symm.trans hcalm) (by simp)
  · trivial

def reportLive (s : SocketId) (p : PeerId) (segments : List SegmentId) : HubEvent :=
  .received s true 0 (.reportSegments "live" p ⟨some segments, none, none, none⟩)

/-- Two viewers, and a report by the first that is being flushed: one of them
was served. -/
def firstSlice : List HubEvent :=
  firstViewer ++
    [.connected 1 ⟨"live", "q"⟩, viewLive 1 "q", reportLive 0 "p" ["x"], .batchTimer "live"]

/-- A join and a report during the flush, and the flush of that report. -/
def flushedTwice : List HubEvent :=
  firstSlice ++
    [joinLive "r", reportLive 0 "p" ["y"], .flushTurn "live", .batchTimer "live",
      .flushTurn "live"]

theorem inventories_converge_flushed : (endOf flushedTwice).InventoriesConverged :=
  inventories_converge <|
    TransitionSystem.Reachable.mono (fun _ _ hok => ⟨hok.1, hok.2.nothingOutlived⟩)
      ((TransitionSystem.Reachable.init init_start).append_run
        (show system.RunOk (fun h e => h.CapsNotReached e ∧ h.Undisturbed e) start flushedTwice by
          decide +kernel)
        (run_endOf (by decide +kernel)))

/-- The reporter leaves and joins again before the other viewer's turn. -/
def returnDuringFlush : List HubEvent :=
  firstSlice ++ [.leavePeer "live" "p", joinLive "p", .flushTurn "live"]

/-- The second viewer is sent the inventory of the peer's former self. -/
theorem flush_outlives_peer :
    ¬ ∀ h : TrackerWebSocketHub, system.Reachable CapsNotReached h → h.InventoriesConverged := by
  intro hall
  have hconverged := hall (endOf returnDuringFlush)
    ((TransitionSystem.Reachable.init init_start).append_run
      (show system.RunOk CapsNotReached start returnDuringFlush by decide +kernel)
      (run_endOf (by decide +kernel)))
  have hsocket : ((endOf returnDuringFlush).sockets.get? 1).isSome = true := by decide +kernel
  obtain ⟨socket, hget⟩ := Option.isSome_iff_exists.mp hsocket
  have hcopy : ∀ found ∈ (endOf returnDuringFlush).sockets.get? 1,
      found.isOpen = true ∧ "x" ∈ (found.directory "live").inventory "p" := by decide +kernel
  have hviews : ((endOf returnDuringFlush).neighborViews.bind fun v => v.view "live" "q").any
      (fun view => decide ("p" ∈ view)) = true := by decide +kernel
  have hpeer : ((endOf returnDuringFlush).store.getPeer "live" "p").map Peer.segments = some [] := by
    decide +kernel
  obtain ⟨view, hview, hp⟩ := (Option.any_eq_true _ _).mp hviews
  obtain ⟨v, hv, hview⟩ := Option.bind_eq_some_iff.mp hview
  obtain ⟨peer, hstored, hempty⟩ := Option.map_eq_some_iff.mp hpeer
  obtain ⟨hopen, hx⟩ := hcopy socket hget
  obtain ⟨-, hsame⟩ := hconverged 1 ⟨"live", "q", true, true⟩ socket (by decide +kernel) rfl hget
    hopen (by decide +kernel) (by decide +kernel) v view "p" peer hv hview (of_decide_eq_true hp)
    hstored
  rw [hsame, hempty] at hx
  exact List.not_mem_nil hx

end TrackerWebSocketHub

end OpenStreamGrid
