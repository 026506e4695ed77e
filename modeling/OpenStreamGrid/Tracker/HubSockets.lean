import OpenStreamGrid.Tracker.HubFollowing

/-!
# Sockets that come and go

Subscribing resets one directory from a fresh peer list; everything else that
happens to subscriptions, sockets and the store goes unnoticed by the
neighbor-view sockets that stay open.
-/

namespace OpenStreamGrid

namespace TrackerWebSocketHub

variable {h h' h'' : TrackerWebSocketHub} {s : SocketId} {b : BroadcastId} {p : PeerId}
variable {good good' : BroadcastId → PeerId → PeerId → Set SegmentId → Prop}
variable {exact exact' : BroadcastId → PeerId → Prop}

/-! ## Unnoticed changes -/

/-- Neighbor-view sockets that are still open were there before and were sent
nothing, and the subscribers object of their broadcast is the same. -/
structure Unnoticed (h h' : TrackerWebSocketHub) : Prop where
  viewers : ∀ s b p, s ∈ h'.viewerSockets b p → s ∈ h.viewerSockets b p
  sockets : ∀ s b p socket, s ∈ h'.viewerSockets b p → h'.sockets.get? s = some socket →
    socket.isOpen = true → h.sockets.get? s = some socket
  kept : ∀ s b p, s ∈ h'.viewerSockets b p → h'.subscribersId b = h.subscribersId b
  fresh : ∀ b id, h'.subscribersId b = some id →
    h.subscribersId b = some id ∨ h.subscribersCreated ≤ id ∧ id < h'.subscribersCreated
  created : h.subscribersCreated ≤ h'.subscribersCreated

theorem Unnoticed.refl (h : TrackerWebSocketHub) : Unnoticed h h where
  viewers _ _ _ := id
  sockets _ _ _ _ _ hget _ := hget
  kept _ _ _ _ := rfl
  fresh _ _ := Or.inl
  created := le_rfl

/-- Following is kept by a change of the store and of what counts as good, as
long as the sockets do not notice. -/
theorem Following.mono (hf : h.Following good exact) (hu : Unnoticed h h')
    (hshown : ∀ s b p, s ∈ h'.viewerSockets b p → ∀ q ∈ h'.shown b p, q ∈ h'.stored b →
      q ∈ h.shown b p ∧ q ∈ h.stored b ∧ ∀ copy, good b p q copy → good' b p q copy)
    (hknown : ∀ s b p socket, s ∈ h.viewerSockets b p → h.sockets.get? s = some socket →
      socket.isOpen = true → exact' b p → (∀ q ∈ (socket.directory b).peers, q = p) ∨
        exact b p ∧ ∀ q ∈ h.shown b p, q ∈ h'.shown b p) : h'.Following good' exact' := by
  intro s b p socket hs hget hopen
  have hs₀ := hu.viewers s b p hs
  have hget₀ := hu.sockets s b p socket hs hget hopen
  exact (hf s b p socket hs₀ hget₀ hopen).mono (hshown s b p hs)
    (hknown s b p socket hs₀ hget₀ hopen)

/-- Following is kept where nothing but unnoticed sockets changes. -/
theorem Following.unnoticed (hf : h.Following good exact) (hu : Unnoticed h h')
    (hstore : h'.store = h.store) (hviews : h'.neighborViews = h.neighborViews) :
    h'.Following good exact := by
  have hshown : ∀ b p, h'.shown b p = h.shown b p := fun b p => by
    unfold shown
    rw [hviews]
  have hstored : ∀ b, h'.stored b = h.stored b := fun b => by
    unfold stored
    rw [hstore]
  refine hf.mono hu (fun s b p _ q hq hqs => ⟨hshown b p ▸ hq, hstored b ▸ hqs, fun _ => id⟩) ?_
  intro s b p socket _ _ _ hexact
  exact Or.inr ⟨hexact, fun q hq => (hshown b p).symm ▸ hq⟩

/-- Messages to sockets without a neighbor view. -/
theorem Unnoticed.deliver {out : Outgoing}
    (hquiet : ∀ s b p, s ∈ h.viewerSockets b p → messagesTo s out = []) :
    Unnoticed h (h.deliver out) where
  viewers _ _ _ := id
  sockets s b p _ hs hget _ := by
    rw [get?_sockets_deliver, hquiet s b p hs] at hget
    obtain ⟨socket', hsome, rfl⟩ := Option.map_eq_some_iff.mp hget
    rw [hsome]
    split_ifs
    · rw [List.append_nil]
    · rfl
  kept _ _ _ _ := rfl
  fresh _ _ := Or.inl
  created := le_rfl

/-- A socket that stops being a neighbor-view socket, or never was one. -/
theorem Unnoticed.of_sameIndexBut (hsame : SameIndexBut s h h')
    (hgone : ∀ b p, s ∉ h'.viewerSockets b p)
    (hget : ∀ x, x ≠ s → h'.sockets.get? x = h.sockets.get? x) : Unnoticed h h' where
  viewers x b p hx := (hsame.viewers b p x fun e => hgone b p (e ▸ hx)).mp hx
  sockets x b p _ hx hsocket _ := hget x (fun e => hgone b p (e ▸ hx)) ▸ hsocket
  kept x b p hx := hsame.kept b p x (fun e => hgone b p (e ▸ hx)) hx
  fresh := hsame.fresh
  created := hsame.created

theorem get?_sockets_close_of_ne {x : SocketId} (hx : x ≠ s) :
    (h.close s).sockets.get? x = h.sockets.get? x := by
  unfold close
  rw [OrderedMap.get?_modify, if_neg hx]

theorem Unnoticed.close (h : TrackerWebSocketHub) (s : SocketId) : Unnoticed h (h.close s) where
  viewers _ _ _ := id
  sockets x b p socket hx hget hopen := by
    by_cases hxs : x = s
    · subst hxs
      unfold TrackerWebSocketHub.close at hget
      rw [OrderedMap.get?_modify, if_pos rfl] at hget
      obtain ⟨socket', -, rfl⟩ := Option.map_eq_some_iff.mp hget
      exact absurd hopen (by simp)
    · rwa [get?_sockets_close_of_ne hxs] at hget
  kept _ _ _ _ := rfl
  fresh _ _ := Or.inl
  created := le_rfl

theorem Sound.close (hsound : h.Sound) (s : SocketId) : (h.close s).Sound :=
  ⟨hsound.indexed.close s, hsound.views, hsound.keyed, hsound.viewing⟩

/-- A socket without a neighbor view is in no viewer's place. -/
theorem Indexed.not_viewer (hi : h.Indexed)
    (hquiet : ∀ sub, h.subscriptions.get? s = some sub → sub.neighborView = false)
    (b : BroadcastId) (p : PeerId) : s ∉ h.viewerSockets b p := by
  intro hs
  obtain ⟨sub, hsub, hview, -⟩ := (hi.viewers s b p).mp hs
  exact absurd (hview.symm.trans (hquiet sub hsub)) (by simp)

/-- What is left of the hub when a socket leaves the index. -/
theorem Sound.of_sameIndexBut (hsound : h.Sound) (hi : h'.Indexed) (hsame : SameIndexBut s h h')
    (hgone : ∀ b p, s ∉ h'.viewerSockets b p) (hstore : h'.store = h.store)
    (hviews : h'.neighborViews = h.neighborViews) : h'.Sound where
  indexed := hi
  views := by
    rw [hviews]
    exact hsound.views
  keyed := by
    rw [hstore]
    exact hsound.keyed
  viewing x b p hx := by
    rw [hviews]
    exact hsound.viewing x b p
      ((hsame.viewers b p x fun e => hgone b p (e ▸ hx)).mp hx)

theorem removeSocket_unnoticed (hsound : h.Sound) (s : SocketId) :
    (h.removeSocket s).Sound ∧ Unnoticed h (h.removeSocket s) := by
  obtain ⟨hi, hsame⟩ := removeSocket_spec hsound.indexed s
  obtain ⟨index, heq⟩ := h.removeSocket_eq s
  have hgone := hi.not_viewer (s := s) fun sub hsub => by
    rw [heq, OrderedMap.get?_delete, if_pos rfl] at hsub
    cases hsub
  refine ⟨hsound.of_sameIndexBut hi hsame hgone (by rw [heq]; rfl) (by rw [heq]; rfl), ?_⟩
  refine .of_sameIndexBut hsame hgone fun x hx => ?_
  rw [heq]
  exact get?_sockets_close_of_ne hx

theorem dropSubscriber_unnoticed (hsound : h.Sound) (hs : s ∈ h.sockets) :
    (h.dropSubscriber s).Sound ∧ Unnoticed h (h.dropSubscriber s) := by
  obtain ⟨hi, hsame⟩ := dropSubscriber_spec hsound.indexed hs
  obtain ⟨index, heq⟩ := h.dropSubscriber_eq s
  have hgone := hi.not_viewer (s := s) fun sub hsub => by
    rw [heq, OrderedMap.get?_set, if_pos rfl] at hsub
    exact Option.some.inj hsub ▸ rfl
  refine ⟨hsound.of_sameIndexBut hi hsame hgone (by rw [heq]; rfl) (by rw [heq]; rfl), ?_⟩
  refine .of_sameIndexBut hsame hgone fun x hx => ?_
  rw [heq]
  exact get?_sockets_close_of_ne hx

/-- The socket of an upgraded connection. -/
theorem connected_unnoticed (hsound : h.Sound) (hs : s ∉ h.sockets) (socket : Socket) :
    Sound { h with
        sockets := h.sockets.set s socket
        subscriptions := h.subscriptions.set s EMPTY_SUBSCRIPTION } ∧
      Unnoticed h { h with
        sockets := h.sockets.set s socket
        subscriptions := h.subscriptions.set s EMPTY_SUBSCRIPTION } := by
  have hi := hsound.indexed.connected_fresh hs socket
  have hgone := hi.not_viewer (s := s) fun sub hsub => by
    dsimp only at hsub
    rw [OrderedMap.get?_set, if_pos rfl] at hsub
    exact Option.some.inj hsub ▸ rfl
  refine ⟨⟨hi, hsound.views, hsound.keyed, hsound.viewing⟩, ?_⟩
  refine ⟨fun _ _ _ => id, fun x b p found hx hget _ => ?_, fun _ _ _ _ => rfl,
    fun _ _ => Or.inl, le_rfl⟩
  have hne : x ≠ s := fun e => hgone b p (e ▸ hx)
  dsimp only at hget
  rwa [OrderedMap.get?_set, if_neg hne] at hget

theorem Unnoticed.trans (hu : Unnoticed h h') (hu' : Unnoticed h' h'') : Unnoticed h h'' where
  viewers s b p hs := hu.viewers s b p (hu'.viewers s b p hs)
  sockets s b p socket hs hget hopen :=
    hu.sockets s b p socket (hu'.viewers s b p hs) (hu'.sockets s b p socket hs hget hopen) hopen
  kept s b p hs := (hu'.kept s b p hs).trans (hu.kept s b p (hu'.viewers s b p hs))
  fresh b id hid := by
    have := hu.created
    have := hu'.created
    rcases hu'.fresh b id hid with hold | hnew
    · rcases hu.fresh b id hold with hold | hnew
      · exact Or.inl hold
      · exact Or.inr (by omega)
    · exact Or.inr (by omega)
  created := hu.created.trans hu'.created

/-! ## Removing a broadcast -/

/-- The subscribers of a broadcast are connected. -/
theorem Indexed.subscribersOf_connected (hi : h.Indexed) (hs : s ∈ h.subscribersOf b) :
    s ∈ h.sockets := by
  have hsub : ∃ sub, h.subscriptions.get? s = some sub := by
    unfold subscribersOf at hs
    cases hb : h.subscribersByBroadcast.get? b with
    | none =>
        rw [hb] at hs
        exact absurd hs List.not_mem_nil
    | some subscribers =>
        rw [hb] at hs
        have hat : h.subscribersAt b = subscribers := by
          rw [subscribersAt, hb, Option.getD_some]
        simp only [List.mem_append, List.mem_flatMap, OrderedMap.mem_values_iff] at hs
        rcases hs with (hs | hs) | ⟨sockets, ⟨p, hp⟩, hs⟩
        · obtain ⟨sub, hsub, -⟩ := hi.listeners s b (hat.symm ▸ Or.inl hs)
          exact ⟨sub, hsub⟩
        · obtain ⟨sub, hsub, -⟩ := hi.listeners s b (hat.symm ▸ Or.inr hs)
          exact ⟨sub, hsub⟩
        · have hview : s ∈ h.viewerSockets b p := by
            rw [viewerSockets_eq, hat, BroadcastSubscribers.viewersOf, hp, Option.getD_some]
            exact hs
          obtain ⟨sub, hsub, -⟩ := (hi.viewers s b p).mp hview
          exact ⟨sub, hsub⟩
  obtain ⟨sub, hsub⟩ := hsub
  exact hi.connected s (OrderedMap.mem_of_get? hsub)

theorem dropSubscribers_unnoticed (dropped : List SocketId) : ∀ {h : TrackerWebSocketHub},
    h.Sound → (∀ s ∈ dropped, s ∈ h.sockets) →
      (dropped.foldl dropSubscriber h).Sound ∧ Unnoticed h (dropped.foldl dropSubscriber h) ∧
        ∃ sockets subscriptions index, dropped.foldl dropSubscriber h =
          { h with
            sockets := sockets
            subscriptions := subscriptions
            subscribersByBroadcast := index } := by
  induction dropped with
  | nil => exact fun hsound _ => ⟨hsound, .refl _, _, _, _, rfl⟩
  | cons s rest ih =>
      intro h hsound hmem
      obtain ⟨hs, hrest⟩ := List.forall_mem_cons.mp hmem
      obtain ⟨hsound', hu⟩ := dropSubscriber_unnoticed hsound hs
      obtain ⟨index, heq⟩ := h.dropSubscriber_eq s
      obtain ⟨hsound'', hu', sockets, subscriptions, index', heq'⟩ := ih hsound' fun x hx => by
        rw [heq]
        exact OrderedMap.mem_modify.mpr (hrest x hx)
      refine ⟨hsound'', hu.trans hu', sockets, subscriptions, index', ?_⟩
      rw [List.foldl_cons, heq', heq]
      rfl

/-- Everything `broadcastRemoved` does. -/
theorem broadcastRemoved_spec (hsound : h.Sound) (b' : BroadcastId) :
    (h.broadcastRemoved b').Sound ∧ Unnoticed h (h.broadcastRemoved b') ∧
      (h.broadcastRemoved b').store = h.store ∧
      (h.broadcastRemoved b').pendingInventory = h.pendingInventory.delete b' ∧
      (h.broadcastRemoved b').immediates = h.immediates ∧
      (h.broadcastRemoved b').flushing = h.flushing ∧
      (∀ b p q, q ∈ (h.broadcastRemoved b').shown b p ↔ q ∈ h.shown b p ∧ b ≠ b') ∧
      ∀ b q, q ∈ (h.broadcastRemoved b').members b ↔ q ∈ h.members b ∧ b ≠ b' := by
  unfold broadcastRemoved
  set cleared : TrackerWebSocketHub :=
    { h with
      timers := if b' ∈ h.pendingInventory then h.timers.erase b' else h.timers
      pendingInventory := h.pendingInventory.delete b'
      neighborViews := h.neighborViews.map fun v : NeighborViews => v.removeBroadcast b' }
    with hcleared
  have hsound' : cleared.Sound := by
    refine ⟨hsound.indexed.congr rfl rfl rfl fun _ => id, ?_, hsound.keyed, ?_⟩
    · intro v hv
      obtain ⟨v', hv', rfl⟩ := Option.map_eq_some_iff.mp hv
      exact (hsound.views v' hv').removeBroadcast b'
    · intro s b p hs
      rw [hcleared, Option.isSome_map]
      exact hsound.viewing s b p hs
  obtain ⟨hfinal, hu, sockets, subscriptions, index, heq⟩ := dropSubscribers_unnoticed
    (cleared.subscribersOf b') hsound' fun s hs => hsound'.indexed.subscribersOf_connected hs
  have hu' : Unnoticed h cleared := ⟨fun _ _ _ => id, fun _ _ _ _ _ hget _ => hget,
    fun _ _ _ _ => rfl, fun _ _ => Or.inl, le_rfl⟩
  refine ⟨hfinal, hu'.trans hu, by rw [heq], by rw [heq], by rw [heq], by rw [heq], ?_, ?_⟩
  · intro b p q
    rw [heq]
    change (∃ v, cleared.neighborViews = some v ∧ q ∈ v.viewOf b p) ↔
      (∃ v, h.neighborViews = some v ∧ q ∈ v.viewOf b p) ∧ b ≠ b'
    simp only [hcleared, Option.map_eq_some_iff, exists_exists_and_eq_and,
      NeighborViews.viewOf, NeighborViews.broadcastViews_removeBroadcast]
    by_cases hb : b = b'
    · simp [hb, BroadcastViews.viewOf, BroadcastViews.empty]
    · simp [hb]
  · intro b q
    rw [heq]
    change (∃ v, cleared.neighborViews = some v ∧ q ∈ v.members b) ↔
      (∃ v, h.neighborViews = some v ∧ q ∈ v.members b) ∧ b ≠ b'
    simp only [hcleared, Option.map_eq_some_iff, exists_exists_and_eq_and,
      NeighborViews.members, NeighborViews.broadcastViews_removeBroadcast]
    by_cases hb : b = b'
    · simp [hb, BroadcastViews.empty]
    · simp [hb]

/-! ## Subscribing -/

theorem Sound.setSubscription (hsound : h.Sound) {sub : Subscription}
    (hb : sub.broadcastId ≠ "") (hs : s ∈ h.sockets)
    (hview : sub.neighborView = true → h.neighborViews.isSome) :
    (h.setSubscription s sub).Sound := by
  obtain ⟨index, created, heq⟩ := h.setSubscription_eq s sub
  obtain ⟨hsame, hviewer, -⟩ := setSubscription_spec hsound.indexed s sub
  refine ⟨hsound.indexed.setSubscription hb hs, by rw [heq]; exact hsound.views,
    by rw [heq]; exact hsound.keyed, fun x b p hx => ?_⟩
  have hviews : (h.setSubscription s sub).neighborViews = h.neighborViews := by rw [heq]
  rw [hviews]
  by_cases hxs : x = s
  · exact hview ((hviewer b p).mp (hxs ▸ hx)).1
  · exact hsound.viewing x b p ((hsame.viewers b p x hxs).mp hx)

theorem Sound.deliver (hsound : h.Sound) (out : Outgoing) : (h.deliver out).Sound where
  indexed := hsound.indexed.congr rfl rfl rfl fun _ hs => (mem_sockets_deliver h out).mpr hs
  views := hsound.views
  keyed := hsound.keyed
  viewing := hsound.viewing

theorem messagesTo_single (s x : SocketId) (m : WsServerMessage) :
    messagesTo x [(s, m)] = if x = s then [m] else [] := by
  by_cases hx : x = s
  · simp [messagesTo, hx]
  · simp [messagesTo, hx, Ne.symm hx]

/-- **A peer list for one socket**, nothing for the others. -/
theorem Following.subscribed (hf : h.Following good exact) (hsound : h.Sound)
    {sub : Subscription} {peers : List Peer}
    (hothers : ∀ x b p, x ≠ s → x ∈ (h.setSubscription s sub).viewerSockets b p →
      ∀ q ∈ h.stored b, ∀ copy, good b p q copy → good' b p q copy)
    (hself : sub.neighborView = true → sub.peerId ∈ h.stored sub.broadcastId)
    (hlisted : sub.neighborView = true → ∀ peer ∈ peers,
      (peer.id = sub.peerId ∨ peer.id ∈ h.shown sub.broadcastId sub.peerId) ∧
        good' sub.broadcastId sub.peerId peer.id {x | x ∈ peer.segments})
    (hall : sub.neighborView = true → ∀ q ∈ h.stored sub.broadcastId,
      q = sub.peerId ∨ q ∈ h.shown sub.broadcastId sub.peerId → ∃ peer ∈ peers, peer.id = q) :
    ((h.setSubscription s sub).deliver [(s, .peerList sub.broadcastId peers)]).Following
      good' exact := by
  obtain ⟨index, created, heq⟩ := h.setSubscription_eq s sub
  obtain ⟨hsame, hviewer, -⟩ := setSubscription_spec hsound.indexed s sub
  have hsockets : (h.setSubscription s sub).sockets = h.sockets := by rw [heq]
  have hshown : ∀ b p, ((h.setSubscription s sub).deliver
      [(s, .peerList sub.broadcastId peers)]).shown b p = h.shown b p := by
    intro b p
    rw [heq]
    rfl
  have hstored : ∀ b, ((h.setSubscription s sub).deliver
      [(s, .peerList sub.broadcastId peers)]).stored b = h.stored b := by
    intro b
    rw [heq]
    rfl
  intro x b p socket hx hget hopen
  rw [get?_sockets_deliver, hsockets, messagesTo_single] at hget
  obtain ⟨socket', hget', rfl⟩ := Option.map_eq_some_iff.mp hget
  rw [hshown, hstored]
  by_cases hxs : x = s
  · subst hxs
    obtain ⟨hview, rfl, rfl⟩ := (hviewer b p).mp hx
    have hopen' : socket'.isOpen = true := by
      by_contra hclosed
      rw [if_neg hclosed] at hopen
      exact hclosed hopen
    rw [if_pos hopen', if_pos rfl, Socket.directory, PeerDirectory.handleMessages_append]
    have hlist := follows_peerList (exact sub.broadcastId sub.peerId)
      (socket'.directory sub.broadcastId) (hself hview) (hlisted hview) (hall hview)
    rwa [Socket.directory, PeerDirectory.handleMessages_broadcastId] at hlist
  · have hold := hf x b p socket' ((hsame.viewers b p x hxs).mp hx) hget'
    have hlog : (if socket'.isOpen = true then
        { socket' with sent := socket'.sent ++ if x = s then
            [WsServerMessage.peerList sub.broadcastId peers] else [] } else socket') = socket' := by
      rw [if_neg hxs, List.append_nil]
      split_ifs <;> rfl
    rw [hlog] at hopen ⊢
    exact (hold hopen).mono
      (fun q hq hqs => ⟨hq, hqs, hothers x b p hxs hx q hqs⟩) fun h => Or.inr ⟨h, fun _ => id⟩

end TrackerWebSocketHub

end OpenStreamGrid
