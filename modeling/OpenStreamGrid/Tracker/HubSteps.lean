import OpenStreamGrid.Tracker.HubFlush

/-!
# What a step of the hub can do

The inversion of `step`: every event is one of a few effects, stated in terms of
what the store answers and which handler ran, or runs a flush. The invariants of
the fan-out are derived from these effects alone.
-/

namespace OpenStreamGrid

/-- A timer or the turn of a running flush. -/
def HubEvent.flushes : HubEvent → Bool
  | .batchTimer _ | .flushTurn _ => true
  | _ => false

namespace TrackerStore

theorem PeerUpdated.getPeer {s s' : TrackerStore} {b : BroadcastId} {p : PeerId}
    {new : Option PeerState} (h : s.PeerUpdated s' b p new) (b' : BroadcastId) (p' : PeerId) :
    s'.getPeer b' p' = if b' = b ∧ p' = p then new.map PeerState.peer else s.getPeer b' p' := by
  unfold TrackerStore.getPeer
  rw [h.peerState?]
  split_ifs <;> rfl

/-- The same peers are stored, with the same inventories. -/
def SameInventoriesAs (s s' : TrackerStore) : Prop :=
  ∀ b q, (s'.getPeer b q).map (fun peer => (peer.id, peer.segments))
    = (s.getPeer b q).map fun peer => (peer.id, peer.segments)

theorem SameInventoriesAs.refl (s : TrackerStore) : s.SameInventoriesAs s := fun _ _ => rfl

theorem SameInventoriesAs.getPeer {s s' : TrackerStore} (h : s.SameInventoriesAs s')
    {b : BroadcastId} {q : PeerId} {peer : Peer} (hpeer : s'.getPeer b q = some peer) :
    ∃ old, s.getPeer b q = some old ∧ old.id = peer.id ∧ old.segments = peer.segments := by
  have hq := h b q
  rw [hpeer, Option.map_some] at hq
  obtain ⟨old, hold, heq⟩ := Option.map_eq_some_iff.mp hq.symm
  exact ⟨old, hold, (Prod.mk.inj heq).1, (Prod.mk.inj heq).2⟩

theorem SameInventoriesAs.isSome {s s' : TrackerStore} (h : s.SameInventoriesAs s')
    (b : BroadcastId) (q : PeerId) : (s'.getPeer b q).isSome = (s.getPeer b q).isSome := by
  have hq := congrArg Option.isSome (h b q)
  rwa [Option.isSome_map, Option.isSome_map] at hq

/-- A stored record is rewritten, its ID and its inventory are not. -/
theorem PeerUpdated.sameInventories {s s' : TrackerStore} {b : BroadcastId} {p : PeerId}
    {old new : PeerState} (h : s.PeerUpdated s' b p (some new))
    (hold : s.peerState? b p = some old) (hid : new.peer.id = old.peer.id)
    (hsegments : new.peer.segments = old.peer.segments) : s.SameInventoriesAs s' := by
  intro b' q
  rw [h.getPeer]
  split_ifs with hbq
  · rw [hbq.1, hbq.2, TrackerStore.getPeer, hold, Option.map_some, Option.map_some,
      Option.map_some, Option.map_some, hid, hsegments]
  · rfl

end TrackerStore

namespace TrackerWebSocketHub

variable {h h' : TrackerWebSocketHub} {s : SocketId} {b : BroadcastId} {p : PeerId}

/-- The peers of a list leave one after another; the store forgot them before. -/
def peersLeft (h : TrackerWebSocketHub) (removed : List StalePeer) : TrackerWebSocketHub :=
  removed.foldl (fun h x => h.peerLeft x.broadcastId x.peerId) h

/-! ### What handlers leave alone -/

/-- The store and what is scheduled are as they were. -/
structure Untouched (h h' : TrackerWebSocketHub) : Prop where
  store : h'.store = h.store
  immediates : h'.immediates = h.immediates
  flushing : h'.flushing = h.flushing

theorem Untouched.trans {h'' : TrackerWebSocketHub} (hu : Untouched h h')
    (hu' : Untouched h' h'') : Untouched h h'' :=
  ⟨hu'.store.trans hu.store, hu'.immediates.trans hu.immediates, hu'.flushing.trans hu.flushing⟩

theorem peerJoined_untouched (h : TrackerWebSocketHub) (b : BroadcastId) (peer : Peer) :
    Untouched h (h.peerJoined b peer) := by
  unfold peerJoined
  dsimp only
  split <;> exact ⟨rfl, rfl, rfl⟩

theorem peerLeft_untouched (h : TrackerWebSocketHub) (b : BroadcastId) (p : PeerId) :
    Untouched h (h.peerLeft b p) := by
  unfold peerLeft
  dsimp only
  split <;> exact ⟨rfl, rfl, rfl⟩

theorem peersLeft_untouched (removed : List StalePeer) : ∀ h : TrackerWebSocketHub,
    Untouched h (h.peersLeft removed) := by
  induction removed with
  | nil => exact fun _ => ⟨rfl, rfl, rfl⟩
  | cons x rest ih => exact fun h => (h.peerLeft_untouched ..).trans (ih _)

theorem dropSubscriber_untouched (h : TrackerWebSocketHub) (s : SocketId) :
    Untouched h (h.dropSubscriber s) := by
  obtain ⟨index, heq⟩ := h.dropSubscriber_eq s
  rw [heq]
  exact ⟨rfl, rfl, rfl⟩

theorem broadcastRemoved_untouched (h : TrackerWebSocketHub) (b : BroadcastId) :
    Untouched h (h.broadcastRemoved b) := by
  have hdrop : ∀ (dropped : List SocketId) (h : TrackerWebSocketHub),
      Untouched h (dropped.foldl dropSubscriber h) := by
    intro dropped
    induction dropped with
    | nil => exact fun _ => ⟨rfl, rfl, rfl⟩
    | cons s rest ih => exact fun h => (h.dropSubscriber_untouched s).trans (ih _)
  exact ⟨(hdrop _ _).store, (hdrop _ _).immediates, (hdrop _ _).flushing⟩

theorem subscribed_untouched (h : TrackerWebSocketHub) (out out' : Outgoing) (s : SocketId)
    (sub : Subscription) : Untouched h (((h.deliver out).setSubscription s sub).deliver out') := by
  obtain ⟨index, created, heq⟩ := (h.deliver out).setSubscription_eq s sub
  rw [heq]
  exact ⟨rfl, rfl, rfl⟩

theorem publishInventory_untouched (h : TrackerWebSocketHub) (m : InventoryMessage) :
    Untouched h (h.publishInventory m) := by
  unfold publishInventory queueInventory
  split
  · exact ⟨rfl, rfl, rfl⟩
  · dsimp only
    split_ifs <;> exact ⟨rfl, rfl, rfl⟩

theorem mem_stored_iff : p ∈ h.stored b ↔ (h.store.getPeer b p).isSome = true := Iff.rfl

/-- What an event other than a timer or a flush turn can do. -/
inductive StepEffect (h : TrackerWebSocketHub) : HubEvent → TrackerWebSocketHub → Prop where
  /-- The store changes in nothing that subscribers are told. -/
  | stored (e : HubEvent) {store : TrackerStore} (hstore : h.store.SameInventoriesAs store) :
      StepEffect h e { h with store := store }
  | joined {timestamp : Timestamp} {b : BroadcastId} {request : PeerJoinRequest}
      {options : JoinPeerOptions} {store : TrackerStore} {peer : Peer}
      (habsent : h.store.getPeer b request.id = none) (hid : peer.id = request.id)
      (hsegments : peer.segments = [])
      (hstore : ∀ b' q, store.getPeer b' q
        = if b' = b ∧ q = request.id then some peer else h.store.getPeer b' q) :
      StepEffect h (.joinPeer timestamp b request options)
        ({ h with store := store }.peerJoined b peer)
  | left (e : HubEvent) {removed : List StalePeer} {store : TrackerStore}
      (hstore : ∀ b q, store.getPeer b q
        = if ⟨b, q⟩ ∈ removed then none else h.store.getPeer b q) :
      StepEffect h e ({ h with store := store }.peersLeft removed)
  | unregistered (e : HubEvent) {b : BroadcastId} {store : TrackerStore}
      (hstore : ∀ b' q, store.getPeer b' q = if b' = b then none else h.store.getPeer b' q) :
      StepEffect h e ({ h with store := store }.broadcastRemoved b)
  /-- A socket connects or closes. -/
  | unnoticed (e : HubEvent) {h' : TrackerWebSocketHub} (hsound : h'.Sound)
      (hu : Unnoticed h h') (hstore : h'.store = h.store)
      (hviews : h'.neighborViews = h.neighborViews)
      (hpending : h'.pendingInventory = h.pendingInventory)
      (himmediates : h'.immediates = h.immediates) (hflushing : h'.flushing = h.flushing) :
      StepEffect h e h'
  /-- A socket gets a new subscription and a peer list; before, the view of a
  neighbor-view subscriber is topped up. -/
  | subscribed (e : HubEvent) {s : SocketId} {sub : Subscription} {peers : List Peer}
      {h₁ : TrackerWebSocketHub} {out : Outgoing} (hh : Handled h h₁ out)
      (hpending : h₁.pendingInventory = h.pendingInventory)
      (hmembers : ∀ b x, x ∈ h.members b → x ∈ h₁.members b)
      (hnew : ∀ b x, x ∈ h₁.members b → x ∈ h.members b ∨
        b = sub.broadcastId ∧ x ∈ h.stored sub.broadcastId)
      (hb : sub.broadcastId ≠ "") (hs : s ∈ h.sockets)
      (hself : sub.peerId ∈ h.stored sub.broadcastId)
      (hviewing : sub.neighborView = true → h.neighborViews.isSome)
      (hmember : sub.neighborView = true → sub.peerId ∈ h₁.members sub.broadcastId)
      (hlisted : sub.neighborView = true → ∀ peer ∈ peers,
        (peer.id = sub.peerId ∨ peer.id ∈ h₁.shown sub.broadcastId sub.peerId) ∧
          h.store.getPeer sub.broadcastId peer.id = some peer)
      (hall : sub.neighborView = true → ∀ q ∈ h.stored sub.broadcastId,
        q = sub.peerId ∨ q ∈ h₁.shown sub.broadcastId sub.peerId →
          ∃ peer ∈ peers, peer.id = q) :
      StepEffect h e
        (((h₁.deliver out).setSubscription s sub).deliver
          [(s, .peerList sub.broadcastId peers)])
  /-- A report changes one stored inventory and is published. -/
  | reported {s : SocketId} {admitted : Bool} {timestamp : Timestamp} {b : BroadcastId}
      {q : PeerId} {message : ReportSegmentsMessage} {m : InventoryMessage}
      {store : TrackerStore} {old new : Peer} (hb : m.broadcastId = b) (hq : m.peerId = q)
      (hold : h.store.getPeer b q = some old) (hid : new.id = old.id)
      (hsegments : new.segments
        = limitInventory (message.merged old.segments) h.store.maxSegmentsPerPeer)
      (heffect : m.effect = message.effect)
      (hstore : ∀ b' q', store.getPeer b' q'
        = if b' = b ∧ q' = q then some new else h.store.getPeer b' q') :
      StepEffect h (.received s admitted timestamp (.reportSegments b q message))
        ({ h with store := store }.publishInventory m)

/-- A batch that is sent, or the next slice of one. -/
inductive FlushEffect (h : TrackerWebSocketHub) : TrackerWebSocketHub → Prop where
  | batchTimer (b : BroadcastId) :
      FlushEffect h ({ h with timers := h.timers.erase b }.flushInventory b)
  | flushTurn {b : BroadcastId} {job : FlushJob} (hjob : h.immediates.get? b = some job) :
      FlushEffect h ({ h with immediates := h.immediates.delete b }.sendViewerBatches b job)

/-- Nothing but a flush schedules anything. -/
theorem StepEffect.scheduling {e : HubEvent} (heff : StepEffect h e h') :
    h'.immediates = h.immediates ∧ h'.flushing = h.flushing := by
  cases heff with
  | stored => exact ⟨rfl, rfl⟩
  | joined => exact ⟨(peerJoined_untouched ..).immediates, (peerJoined_untouched ..).flushing⟩
  | left => exact ⟨(peersLeft_untouched ..).immediates, (peersLeft_untouched ..).flushing⟩
  | unregistered =>
      exact ⟨(broadcastRemoved_untouched ..).immediates, (broadcastRemoved_untouched ..).flushing⟩
  | unnoticed _ _ _ _ _ _ himmediates hflushing => exact ⟨himmediates, hflushing⟩
  | subscribed _ hh =>
      exact ⟨(subscribed_untouched ..).immediates.trans hh.immediates,
        (subscribed_untouched ..).flushing.trans hh.flushing⟩
  | reported =>
      exact ⟨(publishInventory_untouched ..).immediates, (publishInventory_untouched ..).flushing⟩

/-! ## The store's part -/

theorem getPeer_joined {store : TrackerStore} {t : Timestamp} {request : PeerJoinRequest}
    {options : JoinPeerOptions} {peer : Peer} {already : Bool}
    (hjoin : h.store.joinPeerDetailed t b request options = .ok (store, peer, already)) :
    (∀ b' q, store.getPeer b' q
      = if b' = b ∧ q = request.id then some peer else h.store.getPeer b' q) ∧
      peer.id = request.id ∧
      (already = true → ∃ old, h.store.getPeer b request.id = some old ∧
        peer.segments = old.segments) ∧
      (already = false → h.store.getPeer b request.id = none ∧ peer.segments = []) := by
  obtain ⟨state, hstate, -, rfl, rfl, rfl⟩ := TrackerStore.joinPeerDetailed_ok.mp hjoin
  have hget : h.store.getPeer b request.id
      = (state.peers.get? request.id).map PeerState.peer := by
    rw [TrackerStore.getPeer, TrackerStore.peerState?, hstate, Option.bind_some]
  have hupdated := TrackerStore.peerUpdated_setPeer hstate request.id
    ⟨joinedPeer request ((state.peers.get? request.id).map PeerState.peer) t,
      ((state.peers.get? request.id).map PeerState.stats).getD createEmptyPeerTrafficStats⟩
  refine ⟨hupdated.getPeer, rfl, fun halready => ?_, fun hnew => ?_⟩
  · obtain ⟨old, hold⟩ := Option.isSome_iff_exists.mp halready
    rw [hget, hold]
    exact ⟨old.peer, rfl, rfl⟩
  · rw [Option.isSome_eq_false_iff, Option.isNone_iff_eq_none] at hnew
    rw [hget, hnew]
    exact ⟨rfl, rfl⟩

theorem getPeer_retirePeers (store : TrackerStore) (removed : List StalePeer) (b : BroadcastId)
    (q : PeerId) : (store.retirePeers removed).getPeer b q
      = if ⟨b, q⟩ ∈ removed then none else store.getPeer b q := by
  unfold TrackerStore.getPeer
  rw [TrackerStore.peerState?_retirePeers]
  split_ifs <;> rfl

theorem getPeer_unregisterBroadcast {store store' : TrackerStore}
    (hremove : store.unregisterBroadcast b = .ok store') (b' : BroadcastId) (q : PeerId) :
    store'.getPeer b' q = if b' = b then none else store.getPeer b' q := by
  unfold TrackerStore.unregisterBroadcast at hremove
  split_ifs at hremove
  obtain rfl := Except.ok.inj hremove
  unfold TrackerStore.getPeer TrackerStore.peerState?
  dsimp only
  rw [OrderedMap.get?_delete]
  split_ifs <;> rfl

/-! ## Messages -/

theorem requiredString_ok {key value text : String} (hok : requiredString key value = .ok text) :
    text = value ∧ value ≠ "" := by
  unfold requiredString at hok
  split_ifs at hok with hblank
  refine ⟨(Except.ok.inj hok).symm, ?_⟩
  rintro rfl
  exact hblank (by decide)

/-- Everything a subscription that is accepted does. -/
theorem handleSubscribe_effect (hsound : h.Sound) (e : HubEvent) {features : Option (List String)}
    (hb : b ≠ "") (hok : h.handleSubscribe s b p features = .ok h') : StepEffect h e h' := by
  unfold handleSubscribe at hok
  dsimp only at hok
  split_ifs at hok with hclaims hfeatures hview
  all_goals
    rw [not_or, not_not, Bool.not_eq_false] at hclaims
    obtain ⟨hclaims, hexists⟩ := hclaims
    have hs : s ∈ h.sockets := by
      rw [OrderedMap.mem_iff_isSome]
      obtain ⟨socket, hsocket, -⟩ := Option.map_eq_some_iff.mp hclaims
      rw [hsocket]
      rfl
    have hself : p ∈ h.stored b := hexists
  · -- the view is topped up before the socket is indexed
    obtain ⟨-, hviewing⟩ := Bool.and_eq_true_iff.mp hview
    cases hseed : h.seededViews b with
    | none =>
        rw [seededViews, Option.map_eq_none_iff] at hseed
        rw [hseed] at hviewing
        exact absurd hviewing (by simp)
    | some views =>
        rw [hseed] at hok
        obtain rfl := Except.ok.inj hok
        obtain ⟨hmember, hsub, hnew⟩ := mem_members_topUp hsound hseed p
        have hh : Handled h (h.topUp views b p) (h.announceFill b p
            ((views.add b p).fill b p).2 (h.store.getPeer b)) :=
          topUp_handled hsound hseed p [] fun _ _ _ _ => rfl
        have hshown : ∀ x, x ∈ (h.topUp views b p).shown b p ↔
            x ∈ ((((views.add b p).fill b p).1.view b p).getD ∅).toList := by
          intro x
          rw [shown_of_eq (h := h.topUp views b p) rfl, Set.mem_ofPred_eq,
            NeighborViews.viewOf_eq]
          exact Iff.rfl
        refine .subscribed e hh rfl hsub (fun b' x hx => ?_) hb hs hself (fun _ => hviewing)
          (fun _ => hmember) (fun _ peer hpeer => ?_) fun _ q hq hqs => ?_
        · rcases hnew b' x hx with hx | ⟨hb', hx | rfl⟩
          · exact Or.inl hx
          · exact Or.inr ⟨hb', hx⟩
          · exact Or.inr ⟨hb', hself⟩
        · obtain ⟨q, hq, hget⟩ := List.mem_filterMap.mp hpeer
          obtain rfl := hsound.keyed b q peer hget
          refine ⟨?_, hget⟩
          rcases List.mem_cons.mp hq with hq | hq
          · exact Or.inl hq
          · exact Or.inr ((hshown _).mpr hq)
        · obtain ⟨peer, hget⟩ := Option.isSome_iff_exists.mp hq
          refine ⟨peer, List.mem_filterMap.mpr ⟨q, List.mem_cons.mpr ?_, hget⟩,
            hsound.keyed b q peer hget⟩
          exact hqs.imp_right (hshown q).mp
  · -- the whole audience
    cases hlist : h.store.listPeers b none with
    | error _ =>
        rw [hlist] at hok
        cases hok
    | ok peers =>
        rw [hlist] at hok
        obtain rfl := Except.ok.inj hok
        have hquiet : Handled h h [] := ⟨rfl, rfl, rfl, rfl, rfl, rfl, rfl, hsound.views, rfl,
          fun _ _ _ _ _ _ => Carries.refl _⟩
        refine .subscribed e hquiet rfl (fun _ _ => id) (fun _ _ => Or.inl) hb hs hself
          (fun hv => absurd hv hview) (fun hv => absurd hv hview) (fun hv => absurd hv hview)
          fun hv => absurd hv hview

theorem handleReportSegments_admitted {store : TrackerStore} {admitted : Bool} {t : Timestamp}
    {message : ReportSegmentsMessage} {result : TrackerStore × Option InventoryMessage}
    (hok : handleReportSegments store admitted t b p message = .ok result) : admitted = true := by
  by_contra hnot
  unfold handleReportSegments at hok
  rw [Bool.not_eq_true] at hnot
  simp only [hnot, if_true] at hok
  split_ifs at hok
  · split at hok <;> cases hok
  · split at hok <;> cases hok

/-- An accepted report changes nothing, or one stored inventory, which is published. -/
theorem handleReport_ok {admitted : Bool} {t : Timestamp} {message : ReportSegmentsMessage}
    (hok : h.handleReport s admitted t b p message = .ok h') :
    h' = h ∨ ∃ (old : PeerState) (m : InventoryMessage) (store : TrackerStore),
      h.store.getPeer b p = some old.peer ∧ m.broadcastId = b ∧
      m.peerId = p ∧ m.effect = message.effect ∧
      h.store.PeerUpdated store b p (some
        { old with
          peer :=
            { old.peer with
              segments := limitInventory (message.merged old.peer.segments)
                h.store.maxSegmentsPerPeer
              lastSeenAt := t } }) ∧
      h' = { h with store := store }.publishInventory m := by
  unfold handleReport at hok
  dsimp only at hok
  split_ifs at hok
  cases hresult : handleReportSegments h.store admitted t b p message with
  | error reason =>
      rw [hresult] at hok
      cases hok
  | ok result =>
      obtain ⟨store, published⟩ := result
      rw [hresult] at hok
      obtain rfl := handleReportSegments_admitted hresult
      rcases handleReportSegments_ok hresult with ⟨rfl, rfl, -⟩ |
        ⟨old, m, hold, rfl, hb, hq, heffect, hupdated⟩
      · obtain rfl := Except.ok.inj hok
        exact Or.inl rfl
      · obtain rfl := Except.ok.inj hok
        refine Or.inr ⟨old, m, store, ?_, hb, hq, heffect, hupdated, rfl⟩
        rw [TrackerStore.getPeer, hold, Option.map_some]

/-- Everything a report that is accepted does. -/
theorem handleReport_effect {admitted : Bool} {t : Timestamp} {message : ReportSegmentsMessage}
    (hok : h.handleReport s admitted t b p message = .ok h') :
    StepEffect h (.received s admitted t (.reportSegments b p message)) h' := by
  rcases handleReport_ok hok with rfl | ⟨old, m, store, hget, hb, hq, heffect, hupdated, rfl⟩
  · exact .stored _ (.refl _)
  · have hstore := hupdated.getPeer
    rw [Option.map_some] at hstore
    refine .reported hb hq hget ?_ ?_ heffect hstore
    · rfl
    · rfl

/-- An accepted message is a subscription or a report with a broadcast and a peer. -/
theorem handleMessage_ok {admitted : Bool} {t : Timestamp} {message : SocketMessage}
    (hok : h.handleMessage s admitted t message = .ok h') :
    (∃ b p features, message = .subscribe b p features ∧ b ≠ "" ∧
        h.handleSubscribe s b p features = .ok h') ∨
      ∃ b p report, message = .reportSegments b p report ∧
        h.handleReport s admitted t b p report = .ok h' := by
  unfold handleMessage at hok
  cases hb : requiredString "broadcastId" message.broadcastId with
  | error reason =>
      rw [hb] at hok
      cases hok
  | ok b =>
      cases hp : requiredString "peerId" message.peerId with
      | error reason =>
          rw [hb, hp] at hok
          cases hok
      | ok p =>
          obtain ⟨rfl, hne⟩ := requiredString_ok hb
          obtain ⟨rfl, -⟩ := requiredString_ok hp
          rw [hb, hp] at hok
          cases message with
          | subscribe b p features => exact Or.inl ⟨b, p, features, rfl, hne, hok⟩
          | reportSegments b p report => exact Or.inr ⟨b, p, report, rfl, hok⟩

/-! ## The inversion -/

/-- The handlers that run for events other than a timer or a flush turn. -/
inductive Handles (h : TrackerWebSocketHub) : HubEvent → TrackerWebSocketHub → Prop where
  | stored (e : HubEvent) {store : TrackerStore} (hstore : h.store.SameInventoriesAs store) :
      Handles h e { h with store := store }
  | joined {t : Timestamp} {b : BroadcastId} {request : PeerJoinRequest}
      {options : JoinPeerOptions} {store : TrackerStore} {peer : Peer}
      (hjoin : h.store.joinPeerDetailed t b request options = .ok (store, peer, false)) :
      Handles h (.joinPeer t b request options) ({ h with store := store }.peerJoined b peer)
  | left (e : HubEvent) {removed : List StalePeer}
      (hremoved : ∀ x ∈ removed, x.peerId ∈ h.stored x.broadcastId) :
      Handles h e ({ h with store := h.store.retirePeers removed }.peersLeft removed)
  | removed {b : BroadcastId} {store : TrackerStore}
      (hremove : h.store.unregisterBroadcast b = .ok store) :
      Handles h (.unregisterBroadcast b) ({ h with store := store }.broadcastRemoved b)
  | connected {s : SocketId} {claims : PeerSessionClaims} (hfresh : s ∉ h.sockets) :
      Handles h (.connected s claims)
        { h with
          sockets := h.sockets.set s ⟨claims, true, []⟩
          subscriptions := h.subscriptions.set s EMPTY_SUBSCRIPTION }
  /-- The socket of the event, or one that sent what is refused. -/
  | closing (e : HubEvent) (s : SocketId) : Handles h e (h.close s)
  | closed (s : SocketId) : Handles h (.closed s) (h.removeSocket s)
  | subscribed {s : SocketId} {admitted : Bool} {t : Timestamp} {b : BroadcastId} {p : PeerId}
      {features : Option (List String)} {h' : TrackerWebSocketHub} (hb : b ≠ "")
      (hmessage : h.handleMessage s admitted t (.subscribe b p features) = .ok h')
      (hok : h.handleSubscribe s b p features = .ok h') :
      Handles h (.received s admitted t (.subscribe b p features)) h'
  | reported {s : SocketId} {admitted : Bool} {t : Timestamp} {b : BroadcastId} {p : PeerId}
      {report : ReportSegmentsMessage} {h' : TrackerWebSocketHub}
      (hok : h.handleReport s admitted t b p report = .ok h') :
      Handles h (.received s admitted t (.reportSegments b p report)) h'

theorem withStore_handles (e : HubEvent) {f : PeerState → PeerState}
    (hid : ∀ old, (f old).peer.id = old.peer.id)
    (hsegments : ∀ old, (f old).peer.segments = old.peer.segments) :
    Handles h e (h.withStore (h.store.modifyPeer b p f)) := by
  unfold withStore
  cases hmodify : h.store.modifyPeer b p f with
  | error _ => exact .stored e (.refl _)
  | ok result =>
      obtain ⟨store, peer⟩ := result
      obtain ⟨old, hold, -, hupdated⟩ := TrackerStore.modifyPeer_updated hmodify
      exact .stored e (hupdated.sameInventories hold (hid old) (hsegments old))

/-- **Every event runs one handler.** -/
theorem step_handles (hkeyed : ∀ b q peer, h.store.getPeer b q = some peer → peer.id = q)
    {e : HubEvent} (hflushes : e.flushes = false) (hstep : h.step e = some h') :
    Handles h e h' := by
  cases e with
  | batchTimer | flushTurn => cases hflushes
  | registerBroadcast t registration =>
      obtain rfl := Option.some.inj hstep
      refine .stored _ fun b q => ?_
      unfold TrackerStore.getPeer
      rw [TrackerStore.peerState?_registerBroadcast]
  | unregisterBroadcast b =>
      dsimp only [step] at hstep
      cases hremove : h.store.unregisterBroadcast b with
      | error _ =>
          rw [hremove] at hstep
          obtain rfl := Option.some.inj hstep
          exact .stored _ (.refl _)
      | ok store =>
          rw [hremove] at hstep
          obtain rfl := Option.some.inj hstep
          exact .removed hremove
  | joinPeer t b request options =>
      dsimp only [step] at hstep
      cases hjoin : h.store.joinPeerDetailed t b request options with
      | error _ =>
          rw [hjoin] at hstep
          obtain rfl := Option.some.inj hstep
          exact .stored _ (.refl _)
      | ok result =>
          obtain ⟨store, peer, already⟩ := result
          rw [hjoin] at hstep
          obtain ⟨hget, hid, hold, -⟩ := getPeer_joined hjoin
          cases already with
          | true =>
              -- a re-join rewrites the record of a peer, with its inventory
              obtain rfl := Option.some.inj hstep
              obtain ⟨old, hfound, hsegments⟩ := hold rfl
              have hkey := hkeyed b request.id old hfound
              refine .stored _ fun b' q => ?_
              rw [hget]
              split_ifs with hbq
              · rw [hbq.1, hbq.2, hfound, Option.map_some, Option.map_some, hid, hkey, hsegments]
              · rfl
          | false =>
              obtain rfl := Option.some.inj hstep
              exact .joined hjoin
  | leavePeer b p =>
      dsimp only [step] at hstep
      cases hleave : h.store.leavePeer b p with
      | error _ =>
          rw [hleave] at hstep
          obtain rfl := Option.some.inj hstep
          exact .stored _ (.refl _)
      | ok store =>
          rw [hleave] at hstep
          obtain rfl := Option.some.inj hstep
          obtain ⟨hp, rfl⟩ := TrackerStore.leavePeer_ok.mp hleave
          have hstored : ∀ x ∈ [(⟨b, p⟩ : StalePeer)], x.peerId ∈ h.stored x.broadcastId := by
            intro x hx
            obtain rfl := List.mem_singleton.mp hx
            rw [mem_stored_iff, TrackerStore.getPeer, Option.isSome_map]
            exact hp
          exact .left _ hstored
  | removeStalePeers now maxAgeMs =>
      dsimp only [step] at hstep
      rw [TrackerStore.removeStalePeers_eq] at hstep
      obtain rfl := Option.some.inj hstep
      refine .left _ fun x hx => ?_
      obtain ⟨peerState, hx, -⟩ := TrackerStore.mem_stalePeers.mp hx
      rw [mem_stored_iff, TrackerStore.getPeer, hx]
      rfl
  | heartbeat t b p heartbeat =>
      obtain rfl := Option.some.inj hstep
      exact withStore_handles _ (fun _ => rfl) fun _ => rfl
  | reportStats t b p stats =>
      obtain rfl := Option.some.inj hstep
      exact withStore_handles _ (fun _ => rfl) fun _ => rfl
  | connected s claims =>
      dsimp only [step] at hstep
      split_ifs at hstep with hrefused
      obtain rfl := Option.some.inj hstep
      exact .connected (not_or.mp hrefused).1
  | received s admitted t message =>
      dsimp only [step] at hstep
      split_ifs at hstep with hmem
      cases hmessage : h.handleMessage s admitted t message with
      | error _ =>
          rw [hmessage] at hstep
          obtain rfl := Option.some.inj hstep
          exact .closing _ s
      | ok result =>
          rw [hmessage] at hstep
          obtain rfl := Option.some.inj hstep
          rcases handleMessage_ok hmessage with
            ⟨b, p, features, rfl, hne, hok⟩ | ⟨b, p, report, rfl, hok⟩
          · exact .subscribed hne hmessage hok
          · exact .reported hok
  | closing s =>
      dsimp only [step] at hstep
      split_ifs at hstep
      obtain rfl := Option.some.inj hstep
      exact .closing _ s
  | closed s =>
      dsimp only [step] at hstep
      split_ifs at hstep
      obtain rfl := Option.some.inj hstep
      exact .closed s

theorem Handles.effect (hsound : h.Sound) {e : HubEvent} (hh : Handles h e h') :
    StepEffect h e h' := by
  cases hh with
  | stored _ hstore => exact .stored e hstore
  | joined hjoin =>
      obtain ⟨hget, hid, -, hnew⟩ := getPeer_joined hjoin
      obtain ⟨habsent, hsegments⟩ := hnew rfl
      exact .joined habsent hid hsegments hget
  | left _ hremoved => exact .left e (getPeer_retirePeers h.store _)
  | removed hremove => exact .unregistered _ (getPeer_unregisterBroadcast hremove)
  | @connected s claims hfresh =>
      obtain ⟨hsound', hu⟩ := connected_unnoticed hsound hfresh ⟨claims, true, []⟩
      exact .unnoticed _ hsound' hu rfl rfl rfl rfl rfl
  | closing _ s => exact .unnoticed e (hsound.close s) (.close h s) rfl rfl rfl rfl rfl
  | closed s =>
      obtain ⟨hsound', hu⟩ := removeSocket_unnoticed hsound s
      obtain ⟨index, heq⟩ := h.removeSocket_eq s
      refine .unnoticed _ hsound' hu ?_ ?_ ?_ ?_ ?_ <;> rw [heq] <;> rfl
  | subscribed hb _ hok => exact handleSubscribe_effect hsound _ hb hok
  | reported hok => exact handleReport_effect hok

theorem step_flushes {e : HubEvent} (hflushes : e.flushes = true) (hstep : h.step e = some h') :
    FlushEffect h h' := by
  cases e with
  | batchTimer b =>
      dsimp only [step] at hstep
      split_ifs at hstep
      obtain rfl := Option.some.inj hstep
      exact .batchTimer b
  | flushTurn b =>
      dsimp only [step] at hstep
      cases hjob : h.immediates.get? b with
      | none =>
          rw [hjob] at hstep
          cases hstep
      | some job =>
          rw [hjob] at hstep
          obtain rfl := Option.some.inj hstep
          exact .flushTurn hjob
  | _ => cases hflushes

/-- **Everything an event can do.** -/
theorem step_effect (hsound : h.Sound) {e : HubEvent} (hstep : h.step e = some h') :
    StepEffect h e h' ∨ FlushEffect h h' := by
  cases hflushes : e.flushes with
  | false => exact Or.inl ((step_handles hsound.keyed hflushes hstep).effect hsound)
  | true => exact Or.inr (step_flushes hflushes hstep)

end TrackerWebSocketHub

end OpenStreamGrid
