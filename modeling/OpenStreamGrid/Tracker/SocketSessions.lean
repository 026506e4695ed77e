import OpenStreamGrid.Tracker.SubscriptionIndex

/-!
# A socket's subscription is its session's

The session a socket was opened with stays with it, whatever the hub does. A
subscription is only ever that session's, so what a handler reads from the
subscriptions is about authenticated peers.
-/

namespace OpenStreamGrid

namespace TrackerWebSocketHub

variable {h h' h'' : TrackerWebSocketHub} {s : SocketId} {b : BroadcastId} {p : PeerId}

/-- The session a socket was opened with. -/
def claimsOf (h : TrackerWebSocketHub) (s : SocketId) : Option PeerSessionClaims :=
  (h.sockets.get? s).map Socket.claims

/-- A socket without what it was sent. -/
def statusOf (h : TrackerWebSocketHub) (s : SocketId) : Option (PeerSessionClaims × Bool) :=
  (h.sockets.get? s).map fun socket => (socket.claims, socket.isOpen)

theorem claimsOf_congr (hstatus : h'.statusOf s = h.statusOf s) : h'.claimsOf s = h.claimsOf s := by
  have hfst := congrArg (Option.map Prod.fst) hstatus
  unfold statusOf at hfst
  rwa [Option.map_map, Option.map_map] at hfst

/-- Subscriptions are those of the sessions. -/
def Authenticated (h : TrackerWebSocketHub) : Prop :=
  ∀ s sub, h.subscriptions.get? s = some sub →
    sub = EMPTY_SUBSCRIPTION ∨ h.claimsOf s = some ⟨sub.broadcastId, sub.peerId⟩

/-- Sessions go on, and subscriptions do or end. -/
structure Continues (h h' : TrackerWebSocketHub) : Prop where
  sessions : ∀ s claims, h.claimsOf s = some claims → h'.claimsOf s = some claims
  subscriptions : ∀ s sub, h'.subscriptions.get? s = some sub →
    sub = EMPTY_SUBSCRIPTION ∨ h.subscriptions.get? s = some sub

theorem Continues.of_eq (hsockets : h'.sockets = h.sockets)
    (hsubscriptions : h'.subscriptions = h.subscriptions) : Continues h h' where
  sessions s claims hclaims := by
    unfold claimsOf
    rw [hsockets]
    exact hclaims
  subscriptions s sub hsub := Or.inr (hsubscriptions ▸ hsub)

theorem Continues.refl (h : TrackerWebSocketHub) : Continues h h := .of_eq rfl rfl

theorem Continues.trans (hc : Continues h h') (hc' : Continues h' h'') : Continues h h'' where
  sessions s claims hclaims := hc'.sessions s claims (hc.sessions s claims hclaims)
  subscriptions s sub hsub := by
    rcases hc'.subscriptions s sub hsub with hempty | hsub
    · exact Or.inl hempty
    · exact hc.subscriptions s sub hsub

/-- What else has changed before does not matter. -/
theorem Continues.starting (hc : Continues h' h'') (hsockets : h'.sockets = h.sockets)
    (hsubscriptions : h'.subscriptions = h.subscriptions) : Continues h h'' :=
  (Continues.of_eq hsockets hsubscriptions).trans hc

theorem Authenticated.continues (ha : h.Authenticated) (hc : Continues h h') :
    h'.Authenticated := by
  intro s sub hsub
  rcases hc.subscriptions s sub hsub with hempty | hold
  · exact Or.inl hempty
  · exact (ha s sub hold).imp_right (hc.sessions s _)

/-! ## What handlers do to sessions -/

theorem statusOf_deliver (h : TrackerWebSocketHub) (out : Outgoing) (s : SocketId) :
    (h.deliver out).statusOf s = h.statusOf s := by
  unfold statusOf
  rw [get?_sockets_deliver, Option.map_map]
  refine congrArg (Option.map · _) (funext fun socket => ?_)
  show ((if socket.isOpen then _ else socket : Socket).claims, Socket.isOpen (if _ then _ else _))
    = (socket.claims, socket.isOpen)
  split_ifs <;> rfl

theorem claimsOf_deliver (h : TrackerWebSocketHub) (out : Outgoing) (s : SocketId) :
    (h.deliver out).claimsOf s = h.claimsOf s :=
  claimsOf_congr (h.statusOf_deliver out s)

theorem claimsOf_close (h : TrackerWebSocketHub) (x s : SocketId) :
    (h.close x).claimsOf s = h.claimsOf s := by
  unfold claimsOf close
  rw [OrderedMap.get?_modify]
  split_ifs with hs
  · rw [Option.map_map, hs]
    rfl
  · rfl

theorem Continues.deliver (h : TrackerWebSocketHub) (out : Outgoing) :
    Continues h (h.deliver out) where
  sessions s _ := (h.claimsOf_deliver out s).trans
  subscriptions _ _ := Or.inr

theorem Continues.close (h : TrackerWebSocketHub) (x : SocketId) : Continues h (h.close x) where
  sessions s _ := (h.claimsOf_close x s).trans
  subscriptions _ _ := Or.inr

theorem Continues.removeSocket (h : TrackerWebSocketHub) (x : SocketId) :
    Continues h (h.removeSocket x) := by
  obtain ⟨index, heq⟩ := h.removeSocket_eq x
  rw [heq]
  refine ⟨(Continues.close h x).sessions, fun s sub hsub => ?_⟩
  rw [OrderedMap.get?_delete] at hsub
  split_ifs at hsub
  exact Or.inr hsub

theorem Continues.dropSubscriber (h : TrackerWebSocketHub) (x : SocketId) :
    Continues h (h.dropSubscriber x) := by
  obtain ⟨index, heq⟩ := h.dropSubscriber_eq x
  rw [heq]
  refine ⟨(Continues.close h x).sessions, fun s sub hsub => ?_⟩
  rw [OrderedMap.get?_set] at hsub
  split_ifs at hsub
  · exact Or.inl (Option.some.inj hsub).symm
  · exact Or.inr hsub

theorem Continues.dropSubscribers (dropped : List SocketId) : ∀ h : TrackerWebSocketHub,
    Continues h (dropped.foldl TrackerWebSocketHub.dropSubscriber h) := by
  induction dropped with
  | nil => exact .refl
  | cons x rest ih => exact fun h => (Continues.dropSubscriber h x).trans (ih _)

theorem Continues.broadcastRemoved (h : TrackerWebSocketHub) (b : BroadcastId) :
    Continues h (h.broadcastRemoved b) := by
  unfold TrackerWebSocketHub.broadcastRemoved
  dsimp only
  exact (Continues.dropSubscribers _ _).starting rfl rfl

theorem Continues.peerJoined (h : TrackerWebSocketHub) (b : BroadcastId) (peer : Peer) :
    Continues h (h.peerJoined b peer) := by
  unfold TrackerWebSocketHub.peerJoined
  dsimp only
  split
  · exact .deliver ..
  · exact (Continues.deliver _ _).starting rfl rfl

theorem Continues.peerLeft (h : TrackerWebSocketHub) (b : BroadcastId) (p : PeerId) :
    Continues h (h.peerLeft b p) := by
  unfold TrackerWebSocketHub.peerLeft
  dsimp only
  split
  · exact (Continues.deliver _ _).starting rfl rfl
  · exact (Continues.deliver _ _).starting rfl rfl

theorem Continues.peersLeft (removed : List StalePeer) : ∀ h : TrackerWebSocketHub,
    Continues h (h.peersLeft removed) := by
  induction removed with
  | nil => exact .refl
  | cons x rest ih => exact fun h => (Continues.peerLeft h _ _).trans (ih _)

theorem Continues.publishInventory (h : TrackerWebSocketHub) (m : InventoryMessage) :
    Continues h (h.publishInventory m) := by
  unfold TrackerWebSocketHub.publishInventory queueInventory
  split
  · exact .refl h
  · dsimp only
    split_ifs
    · exact (Continues.deliver h _).trans (.of_eq rfl rfl)
    · exact .deliver ..

theorem Continues.handleReport {admitted : Bool} {t : Timestamp} {report : ReportSegmentsMessage}
    (hok : h.handleReport s admitted t b p report = .ok h') : Continues h h' := by
  rcases handleReport_ok hok with rfl | ⟨old, m, store, -, -, -, -, -, rfl⟩
  · exact .refl _
  · exact (Continues.publishInventory _ m).starting rfl rfl

/-- A slice of a flush only sends. -/
theorem Continues.sendSlice (h : TrackerWebSocketHub) (b : BroadcastId) (job : FlushJob) :
    Continues h (h.sendSlice b job).1 := by
  unfold TrackerWebSocketHub.sendSlice
  dsimp only
  split_ifs
  · exact (Continues.deliver h _).trans (.of_eq rfl rfl)
  · exact (Continues.deliver h _).trans (.of_eq rfl rfl)

theorem Continues.startFlush (h : TrackerWebSocketHub) (b : BroadcastId) :
    Continues h (h.startFlush b).1 := by
  unfold TrackerWebSocketHub.startFlush
  dsimp only
  have hsent : ∀ out, Continues h ((h.taken b).deliver out) := fun out =>
    (Continues.deliver _ _).starting rfl rfl
  split
  · split_ifs
    · exact .of_eq rfl rfl
    all_goals first
      | exact hsent _
      | exact (hsent _).trans ((Continues.sendSlice _ _ _).starting rfl rfl)
  · exact .of_eq rfl rfl

theorem Continues.flushRequestedNext (h : TrackerWebSocketHub) (b : BroadcastId) :
    Continues h (h.flushRequestedNext b) := by
  unfold TrackerWebSocketHub.flushRequestedNext
  split_ifs
  · exact (Continues.startFlush _ b).starting rfl rfl
  · exact .refl h

theorem FlushEffect.continues (heff : FlushEffect h h') : Continues h h' := by
  cases heff with
  | batchTimer b =>
      have hstart : Continues h ({ h with timers := h.timers.erase b }.startFlush b).1 :=
        (Continues.startFlush _ b).starting rfl rfl
      unfold flushInventory
      dsimp only
      split_ifs
      · exact .of_eq rfl rfl
      · exact hstart.trans (.flushRequestedNext _ b)
      · exact hstart
  | @flushTurn b job _ =>
      have hslice : Continues h
          ({ h with immediates := h.immediates.delete b }.sendSlice b job).1 :=
        (Continues.sendSlice _ b job).starting rfl rfl
      unfold sendViewerBatches
      dsimp only
      split_ifs
      · exact hslice.trans (.flushRequestedNext _ b)
      · exact hslice

/-! ## Subscribing -/

/-- What an accepted subscription does to sockets and subscriptions. -/
structure Subscribes (h h' : TrackerWebSocketHub) (s : SocketId) (b : BroadcastId) (p : PeerId) :
    Prop where
  claims : h.claimsOf s = some ⟨b, p⟩
  sockets : ∀ x, h'.statusOf x = h.statusOf x
  subscribed : ∃ sub : Subscription, sub.broadcastId = b ∧ sub.peerId = p ∧
    h'.subscriptions = h.subscriptions.set s sub
  store : h'.store = h.store

theorem subscribes_deliver (hclaims : h.claimsOf s = some ⟨b, p⟩)
    (hsockets : ∀ x, h'.statusOf x = h.statusOf x)
    (hsubscriptions : h'.subscriptions = h.subscriptions) (hstore : h'.store = h.store)
    (inventoryBatch neighborView : Bool) (out : Outgoing) :
    Subscribes h ((h'.setSubscription s ⟨b, p, inventoryBatch, neighborView⟩).deliver out) s b p := by
  obtain ⟨index, created, heq⟩ := h'.setSubscription_eq s ⟨b, p, inventoryBatch, neighborView⟩
  rw [heq]
  refine ⟨hclaims, fun x => ?_, ⟨⟨b, p, inventoryBatch, neighborView⟩, rfl, rfl, ?_⟩, hstore⟩
  · exact (statusOf_deliver _ out x).trans (hsockets x)
  · show h'.subscriptions.set s _ = _
    rw [hsubscriptions]

/-- **A socket subscribes to what its session names.** -/
theorem handleSubscribe_subscribes {features : Option (List String)}
    (hok : h.handleSubscribe s b p features = .ok h') : Subscribes h h' s b p := by
  unfold handleSubscribe at hok
  dsimp only at hok
  split_ifs at hok with hclaims hfeatures hview
  all_goals
    rw [not_or, not_not] at hclaims
    have hsession : h.claimsOf s = some ⟨b, p⟩ := hclaims.1
    cases hlist : h.store.listPeers b none with
    | error e =>
        rw [hlist] at hok
        first
          | cases hok
          | cases hseed : h.seededViews b with
            | none =>
                rw [hseed] at hok
                cases hok
            | some views =>
                rw [hseed] at hok
                obtain rfl := Except.ok.inj hok
                refine subscribes_deliver hsession (fun x => ?_) ?_ ?_ _ _ _
                · exact statusOf_deliver _ _ x
                · rfl
                · rfl
    | ok peers =>
        rw [hlist] at hok
        first
          | obtain rfl := Except.ok.inj hok
            exact subscribes_deliver hsession (fun _ => rfl) rfl rfl _ _ _
          | cases hseed : h.seededViews b with
            | none =>
                rw [hseed] at hok
                obtain rfl := Except.ok.inj hok
                exact subscribes_deliver hsession (fun _ => rfl) rfl rfl _ _ _
            | some views =>
                rw [hseed] at hok
                obtain rfl := Except.ok.inj hok
                refine subscribes_deliver hsession (fun x => ?_) ?_ ?_ _ _ _
                · exact statusOf_deliver _ _ x
                · rfl
                · rfl

theorem Subscribes.authenticated (hs : Subscribes h h' s b p) (ha : h.Authenticated) :
    h'.Authenticated := by
  obtain ⟨sub, hb, hp, hsubscriptions⟩ := hs.subscribed
  intro x found hfound
  rw [hsubscriptions, OrderedMap.get?_set] at hfound
  rw [claimsOf_congr (hs.sockets x)]
  split_ifs at hfound with hx
  · obtain rfl := Option.some.inj hfound
    rw [hx, hb, hp]
    exact Or.inr hs.claims
  · exact ha x found hfound

/-! ## Every step -/

/-- A new socket has its session and subscribes to nothing. -/
theorem connected_authenticated (ha : h.Authenticated) (s : SocketId)
    (claims : PeerSessionClaims) : Authenticated { h with
      sockets := h.sockets.set s ⟨claims, true, []⟩
      subscriptions := h.subscriptions.set s EMPTY_SUBSCRIPTION } := by
  intro x sub hsub
  rw [OrderedMap.get?_set] at hsub
  split_ifs at hsub with hx
  · exact Or.inl (Option.some.inj hsub).symm
  · refine (ha x sub hsub).imp_right fun hclaims => ?_
    unfold claimsOf at hclaims ⊢
    rwa [OrderedMap.get?_set, if_neg hx]

theorem Handles.authenticated {e : HubEvent} (hh : Handles h e h') (ha : h.Authenticated) :
    h'.Authenticated := by
  cases hh with
  | stored => exact ha.continues (.of_eq rfl rfl)
  | joined => exact ha.continues ((Continues.peerJoined _ _ _).starting rfl rfl)
  | left => exact ha.continues ((Continues.peersLeft _ _).starting rfl rfl)
  | removed => exact ha.continues ((Continues.broadcastRemoved _ _).starting rfl rfl)
  | connected => exact connected_authenticated ha _ _
  | closing => exact ha.continues (.close h _)
  | closed => exact ha.continues (.removeSocket h _)
  | subscribed _ _ hok => exact (handleSubscribe_subscribes hok).authenticated ha
  | reported hok => exact ha.continues (.handleReport hok)

theorem Authenticated.step {e : HubEvent} (ha : h.Authenticated) (hsteady : h.Steady)
    (hstep : h.step e = some h') : h'.Authenticated := by
  cases hflushes : e.flushes with
  | true => exact ha.continues (step_flushes hflushes hstep).continues
  | false => exact (step_handles hsteady.keyed hflushes hstep).authenticated ha

/-- In every reachable state subscriptions are those of the sessions. -/
theorem authenticated_of_reachable (hr : system.Reachable (fun _ _ => True) h) :
    h.Authenticated := by
  refine (hr.invariant (fun h => h.Steady ∧ h.Authenticated) ?_ ?_).2
  · rintro h ⟨perTurn, size, random, store, rfl, hkeyed⟩
    exact ⟨steady_new perTurn size random hkeyed, fun s sub hsub => nomatch hsub⟩
  · intro h e h' hh _ hstep
    exact ⟨hh.1.step hstep, hh.2.step hh.1 hstep⟩

/-- A socket's session never changes. -/
theorem claimsOf_step {e : HubEvent} {claims : PeerSessionClaims} (hsteady : h.Steady)
    (hstep : h.step e = some h') (hclaims : h.claimsOf s = some claims) :
    h'.claimsOf s = some claims := by
  cases hflushes : e.flushes with
  | true => exact (step_flushes hflushes hstep).continues.sessions s claims hclaims
  | false =>
      have hh := step_handles hsteady.keyed hflushes hstep
      cases hh with
      | stored => exact hclaims
      | joined =>
          exact ((Continues.peerJoined _ _ _).starting rfl rfl).sessions s claims hclaims
      | left =>
          exact ((Continues.peersLeft _ _).starting rfl rfl).sessions s claims hclaims
      | removed =>
          exact ((Continues.broadcastRemoved _ _).starting rfl rfl).sessions s claims hclaims
      | @connected x _ hfresh =>
          have hs : s ≠ x := by
            rintro rfl
            unfold claimsOf at hclaims
            rw [OrderedMap.get?_eq_none_iff.mpr hfresh] at hclaims
            cases hclaims
          unfold claimsOf at hclaims ⊢
          rwa [OrderedMap.get?_set, if_neg hs]
      | closing => exact (Continues.close h _).sessions s claims hclaims
      | closed => exact (Continues.removeSocket h _).sessions s claims hclaims
      | subscribed _ _ hok => exact (claimsOf_congr ((handleSubscribe_subscribes hok).sockets s)).trans hclaims
      | reported hok => exact (Continues.handleReport hok).sessions s claims hclaims

/-! ## What the subscriptions say -/

/-- A subscriber's subscription is to this broadcast. -/
theorem Placed.subscription_of_subscriber (hp : h.Placed) (hs : s ∈ h.subscribersOf b) :
    ∃ sub, h.subscriptions.get? s = some sub ∧ sub.broadcastId ≠ "" ∧ sub.broadcastId = b := by
  have hbucket : ∃ d, s ∈ h.bucketAt b d := by
    unfold subscribersOf at hs
    cases hb : h.subscribersByBroadcast.get? b with
    | none =>
        rw [hb] at hs
        exact absurd hs List.not_mem_nil
    | some subscribers =>
        rw [hb] at hs
        have hat : h.subscribersAt b = subscribers := by
          rw [subscribersAt, hb, Option.getD_some]
        unfold bucketAt
        rw [hat]
        simp only [List.mem_append, List.mem_flatMap, OrderedMap.mem_values_iff] at hs
        rcases hs with (hs | hs) | ⟨sockets, ⟨p, hviewers⟩, hs⟩
        · exact ⟨.immediate, hs⟩
        · exact ⟨.batched, hs⟩
        · refine ⟨.viewers p, ?_⟩
          show s ∈ (subscribers.viewers.get? p).getD ∅
          rw [hviewers]
          exact hs
  obtain ⟨d, hd⟩ := hbucket
  obtain ⟨sub, hsub, hne, hb, -⟩ := (hp.placed s b d).mp hd
  exact ⟨sub, hsub, hne, hb⟩

/-- A subscriber of a broadcast as a peer holds the peer's session. -/
theorem claimsOf_subscriber (hplaced : h.Placed) (ha : h.Authenticated)
    (hs : s ∈ h.subscribersOf b)
    (hp : (h.subscriptions.get? s).map Subscription.peerId = some p) :
    h.claimsOf s = some ⟨b, p⟩ := by
  obtain ⟨sub, hsub, hne, rfl⟩ := hplaced.subscription_of_subscriber hs
  rw [hsub, Option.map_some, Option.some.injEq] at hp
  obtain rfl := hp
  refine (ha s sub hsub).resolve_left ?_
  rintro rfl
  exact hne rfl

end TrackerWebSocketHub

end OpenStreamGrid
