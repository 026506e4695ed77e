import OpenStreamGrid.Tracker.HubEvents

/-!
# The subscriber index

Fan-out goes through an index of the subscriptions by broadcast and, for
neighbor-view subscribers, by peer. `Indexed` says that the index and the
subscriptions agree, so that a neighbor-view socket is sent what is meant for
its own peer and nothing else.
-/

namespace OpenStreamGrid

namespace BroadcastSubscribers

variable {s : BroadcastSubscribers} {socket x : SocketId} {p q : PeerId}

/-- The neighbor-view sockets of a peer. -/
def viewersOf (s : BroadcastSubscribers) (p : PeerId) : OrderedSet SocketId :=
  (s.viewers.get? p).getD ∅

/-- The socket sees the whole audience. -/
def Listens (s : BroadcastSubscribers) (socket : SocketId) : Prop :=
  socket ∈ s.immediate ∨ socket ∈ s.batched

theorem mem_viewersOf_new (id : ℕ) : x ∉ (new id).viewersOf q := OrderedSet.not_mem_empty x

theorem not_listens_new (id : ℕ) : ¬ (new id).Listens x := by
  rintro (hx | hx) <;> exact OrderedSet.not_mem_empty x hx

theorem mem_viewersOf_add {subscription : Subscription} :
    x ∈ (s.add socket subscription).viewersOf q ↔
      x ∈ s.viewersOf q ∨
        subscription.neighborView = true ∧ q = subscription.peerId ∧ x = socket := by
  unfold add viewersOf
  split_ifs with hview hbatch
  · rw [OrderedMap.get?_set]
    split_ifs with hq
    · simp [hview, hq]
    · simp [hq]
  · simp [hview]
  · simp [hview]

theorem listens_add {subscription : Subscription} :
    (s.add socket subscription).Listens x ↔
      s.Listens x ∨ subscription.neighborView = false ∧ x = socket := by
  unfold add Listens
  split_ifs with hview hbatch
  · simp [hview]
  · simp [hview, or_assoc]
  · simp [hview, or_right_comm]

@[simp] theorem add_id (s : BroadcastSubscribers) (socket : SocketId)
    (subscription : Subscription) : (s.add socket subscription).id = s.id := by
  unfold add
  split_ifs <;> rfl

theorem mem_viewersOf_remove :
    x ∈ (s.remove socket p).viewersOf q ↔ x ∈ s.viewersOf q ∧ ¬ (q = p ∧ x = socket) := by
  unfold remove viewersOf
  cases hp : s.viewers.get? p with
  | none =>
      dsimp only
      refine (and_iff_left_of_imp ?_).symm
      rintro hx ⟨rfl, -⟩
      rw [hp] at hx
      exact OrderedSet.not_mem_empty x hx
  | some sockets =>
      dsimp only
      split_ifs with hlast
      · rw [OrderedMap.get?_delete]
        split_ifs with hq
        · rw [hq, hp, Option.getD_none, Option.getD_some]
          refine iff_of_false (OrderedSet.not_mem_empty x) ?_
          rintro ⟨hx, hne⟩
          have hmem : x ∈ sockets.erase socket :=
            OrderedSet.mem_erase.mpr ⟨hx, fun e => hne ⟨rfl, e⟩⟩
          have := OrderedSet.size_pos_of_mem hmem
          omega
        · simp [hq]
      · rw [OrderedMap.get?_set]
        split_ifs with hq
        · simp [hq, hp]
        · simp [hq]

theorem listens_remove : (s.remove socket p).Listens x ↔ s.Listens x ∧ x ≠ socket := by
  unfold remove Listens
  rw [OrderedSet.mem_erase, OrderedSet.mem_erase, or_and_right]

/-- An empty record has nobody to send to. -/
theorem not_mem_of_isEmpty (h : s.isEmpty = true) : x ∉ s.viewersOf q ∧ ¬ s.Listens x := by
  unfold isEmpty at h
  obtain ⟨himmediate, hbatched, hviewers⟩ := of_decide_eq_true h
  refine ⟨fun hx => ?_, ?_⟩
  · unfold viewersOf at hx
    cases hq : s.viewers.get? q with
    | none =>
        rw [hq] at hx
        exact OrderedSet.not_mem_empty x hx
    | some sockets =>
        have hlength := List.length_pos_of_mem (OrderedMap.get?_eq_some_iff.mp hq)
        unfold OrderedMap.size at hviewers
        omega
  · rintro (hx | hx)
    · have := OrderedSet.size_pos_of_mem hx
      omega
    · have := OrderedSet.size_pos_of_mem hx
      omega

end BroadcastSubscribers

/-! ## What one socket is sent -/

/-- The messages of a fan-out that go to one socket, in order. -/
def messagesTo (s : SocketId) (out : Outgoing) : List WsServerMessage :=
  out.filterMap fun entry => if entry.1 = s then some entry.2 else none

@[simp] theorem messagesTo_nil (s : SocketId) : messagesTo s [] = [] := rfl

@[simp] theorem messagesTo_append (s : SocketId) (out out' : Outgoing) :
    messagesTo s (out ++ out') = messagesTo s out ++ messagesTo s out' := List.filterMap_append

theorem messagesTo_flatMap {α : Type} (s : SocketId) (f : α → Outgoing) (xs : List α) :
    messagesTo s (xs.flatMap f) = xs.flatMap fun x => messagesTo s (f x) :=
  List.filterMap_flatMap

theorem messagesTo_sendToAll (s : SocketId) (sockets : OrderedSet SocketId)
    (m : WsServerMessage) :
    messagesTo s (sendToAll sockets m) = if s ∈ sockets then [m] else [] := by
  unfold messagesTo sendToAll
  rw [List.filterMap_map]
  obtain ⟨xs, hnd⟩ := sockets
  change xs.filterMap (fun x => if x = s then some m else none) = if s ∈ xs then [m] else []
  induction xs with
  | nil => rfl
  | cons x rest ih =>
      obtain ⟨hx, hrest⟩ := List.nodup_cons.mp hnd
      by_cases hs : x = s
      · subst hs
        simp [ih hrest, hx]
      · simp [ih hrest, hs, Ne.symm hs]

namespace TrackerWebSocketHub

variable {h h' : TrackerWebSocketHub} {s x : SocketId} {b : BroadcastId} {p q : PeerId}

/-- **An open socket gets its messages**, a closing one nothing. -/
theorem get?_sockets_deliver (h : TrackerWebSocketHub) (out : Outgoing) (s : SocketId) :
    (h.deliver out).sockets.get? s = (h.sockets.get? s).map fun socket =>
      if socket.isOpen then { socket with sent := socket.sent ++ messagesTo s out }
      else socket := by
  unfold deliver
  dsimp only
  generalize h.sockets = sockets
  induction out generalizing sockets with
  | nil => simp
  | cons entry rest ih =>
      rw [List.foldl_cons, ih, OrderedMap.get?_modify]
      obtain ⟨t, m⟩ := entry
      by_cases hs : s = t
      · subst hs
        rw [if_pos rfl, Option.map_map]
        refine congrArg (Option.map · _) (funext fun socket => ?_)
        by_cases hopen : socket.isOpen = true
        · simp [messagesTo, hopen]
        · simp [hopen]
      · rw [if_neg hs]
        simp [messagesTo, Ne.symm hs]

theorem mem_sockets_deliver (h : TrackerWebSocketHub) (out : Outgoing) :
    s ∈ (h.deliver out).sockets ↔ s ∈ h.sockets := by
  rw [OrderedMap.mem_iff_isSome, get?_sockets_deliver, Option.isSome_map,
    ← OrderedMap.mem_iff_isSome]

/-! ## The index agrees with the subscriptions -/

def subscribersAt (h : TrackerWebSocketHub) (b : BroadcastId) : BroadcastSubscribers :=
  (h.subscribersByBroadcast.get? b).getD (.new 0)

/-- Identity of the broadcast's current subscribers object. -/
def subscribersId (h : TrackerWebSocketHub) (b : BroadcastId) : Option ℕ :=
  (h.subscribersByBroadcast.get? b).map BroadcastSubscribers.id

theorem viewerSockets_eq (h : TrackerWebSocketHub) (b : BroadcastId) (p : PeerId) :
    h.viewerSockets b p = (h.subscribersAt b).viewersOf p := by
  unfold viewerSockets subscribersAt
  cases h.subscribersByBroadcast.get? b <;> rfl

structure Indexed (h : TrackerWebSocketHub) : Prop where
  viewers : ∀ s b p, s ∈ h.viewerSockets b p ↔ ∃ sub, h.subscriptions.get? s = some sub ∧
    sub.neighborView = true ∧ sub.broadcastId = b ∧ sub.peerId = p
  listeners : ∀ s b, (h.subscribersAt b).Listens s → ∃ sub, h.subscriptions.get? s = some sub ∧
    sub.neighborView = false ∧ sub.broadcastId = b
  named : "" ∉ h.subscribersByBroadcast
  connected : ∀ s ∈ h.subscriptions, s ∈ h.sockets
  created : ∀ b id, h.subscribersId b = some id → id < h.subscribersCreated

/-- A neighbor-view socket has one broadcast and one peer. -/
theorem Indexed.viewer_unique (hi : h.Indexed) {b' : BroadcastId} (hs : s ∈ h.viewerSockets b p)
    (hs' : s ∈ h.viewerSockets b' q) : b' = b ∧ q = p := by
  obtain ⟨sub, hsub, -, hb, hp⟩ := (hi.viewers s b p).mp hs
  obtain ⟨sub', hsub', -, hb', hq⟩ := (hi.viewers s b' q).mp hs'
  obtain rfl := Option.some.inj (hsub.symm.trans hsub')
  exact ⟨hb'.symm.trans hb, hq.symm.trans hp⟩

theorem Indexed.not_listens (hi : h.Indexed) (hs : s ∈ h.viewerSockets b p) (b' : BroadcastId) :
    ¬ (h.subscribersAt b').Listens s := by
  intro hlistens
  obtain ⟨sub, hsub, hview, -⟩ := (hi.viewers s b p).mp hs
  obtain ⟨sub', hsub', hnone, -⟩ := hi.listeners s b' hlistens
  obtain rfl := Option.some.inj (hsub.symm.trans hsub')
  exact absurd (hview.symm.trans hnone) (by simp)

/-- The index reads the subscriptions, the sockets and the index maps only. -/
theorem Indexed.congr (hi : h.Indexed) (hsub : h'.subscriptions = h.subscriptions)
    (hindex : h'.subscribersByBroadcast = h.subscribersByBroadcast)
    (hcreated : h'.subscribersCreated = h.subscribersCreated)
    (hsockets : ∀ s ∈ h.sockets, s ∈ h'.sockets) : h'.Indexed where
  viewers s b p := by
    rw [viewerSockets, hindex, hsub]
    exact hi.viewers s b p
  listeners s b := by
    rw [subscribersAt, hindex, hsub]
    exact hi.listeners s b
  named := by
    rw [hindex]
    exact hi.named
  connected s hs := by
    rw [hsub] at hs
    exact hsockets s (hi.connected s hs)
  created b id := by
    rw [subscribersId, hindex, hcreated]
    exact hi.created b id

/-! ### Messages to a neighbor-view socket -/

theorem messagesTo_sendToViewer (hi : h.Indexed) (hs : s ∈ h.viewerSockets b p)
    (b' : BroadcastId) (q : PeerId) (m : WsServerMessage) :
    messagesTo s (h.sendToViewer b' q m) = if b' = b ∧ q = p then [m] else [] := by
  unfold sendToViewer
  rw [messagesTo_sendToAll]
  by_cases hbq : b' = b ∧ q = p
  · rw [if_pos hbq, hbq.1, hbq.2, if_pos hs]
  · rw [if_neg hbq, if_neg fun hs' => hbq (hi.viewer_unique hs hs')]

theorem messagesTo_broadcast (hi : h.Indexed) (hs : s ∈ h.viewerSockets b p)
    (m : WsServerMessage) : messagesTo s (h.broadcast m) = [] := by
  have hnot := hi.not_listens hs m.broadcastId
  unfold subscribersAt at hnot
  unfold broadcast
  cases hb : h.subscribersByBroadcast.get? m.broadcastId with
  | none => rfl
  | some subscribers =>
      rw [hb, Option.getD_some] at hnot
      obtain ⟨himmediate, hbatched⟩ := not_or.mp hnot
      dsimp only
      rw [messagesTo_append, messagesTo_sendToAll, messagesTo_sendToAll, if_neg himmediate,
        if_neg hbatched, List.append_nil]

theorem hasViewer_of_mem (hs : s ∈ h.viewerSockets b p) : h.hasViewer b p = true :=
  decide_eq_true (OrderedSet.size_pos_of_mem hs)

/-! ### Changing a subscription -/

theorem unindexSubscription_eq (h : TrackerWebSocketHub) (s : SocketId) :
    ∃ index, h.unindexSubscription s = { h with subscribersByBroadcast := index } := by
  unfold unindexSubscription
  cases h.subscriptions.get? s with
  | none => exact ⟨_, rfl⟩
  | some sub =>
      dsimp only
      split_ifs
      · exact ⟨_, rfl⟩
      · cases h.subscribersByBroadcast.get? sub.broadcastId <;> exact ⟨_, rfl⟩

theorem setSubscription_eq (h : TrackerWebSocketHub) (s : SocketId) (sub : Subscription) :
    ∃ index created, h.setSubscription s sub =
      { h with
        subscriptions := h.subscriptions.set s sub
        subscribersByBroadcast := index
        subscribersCreated := created } := by
  obtain ⟨index, hindex⟩ := h.unindexSubscription_eq s
  unfold setSubscription
  rw [hindex]
  dsimp only
  cases index.get? sub.broadcastId <;> exact ⟨_, _, rfl⟩

/-- The two hubs index the same sockets, but for `s`. A broadcast that has
another neighbor-view socket keeps its subscribers object; any other object a
broadcast may have gained is new. -/
structure SameIndexBut (s : SocketId) (h h' : TrackerWebSocketHub) : Prop where
  viewers : ∀ b p x, x ≠ s → (x ∈ h'.viewerSockets b p ↔ x ∈ h.viewerSockets b p)
  listeners : ∀ b x, x ≠ s → ((h'.subscribersAt b).Listens x ↔ (h.subscribersAt b).Listens x)
  kept : ∀ b p x, x ≠ s → x ∈ h'.viewerSockets b p → h'.subscribersId b = h.subscribersId b
  fresh : ∀ b id, h'.subscribersId b = some id →
    h.subscribersId b = some id ∨ h.subscribersCreated ≤ id ∧ id < h'.subscribersCreated
  created : h.subscribersCreated ≤ h'.subscribersCreated

theorem SameIndexBut.refl (s : SocketId) (h : TrackerWebSocketHub) : SameIndexBut s h h where
  viewers _ _ _ _ := Iff.rfl
  listeners _ _ _ := Iff.rfl
  kept _ _ _ _ _ := rfl
  fresh _ _ := Or.inl
  created := le_rfl

theorem mem_subscribersByBroadcast_of_viewer (hs : s ∈ h.viewerSockets b p) :
    b ∈ h.subscribersByBroadcast := by
  rw [OrderedMap.mem_iff_isSome]
  by_contra hnone
  rw [Option.not_isSome_iff_eq_none] at hnone
  rw [viewerSockets, hnone] at hs
  exact OrderedSet.not_mem_empty s hs

theorem mem_subscribersByBroadcast_of_listens (hs : (h.subscribersAt b).Listens s) :
    b ∈ h.subscribersByBroadcast := by
  rw [OrderedMap.mem_iff_isSome]
  by_contra hnone
  rw [Option.not_isSome_iff_eq_none] at hnone
  rw [subscribersAt, hnone] at hs
  exact BroadcastSubscribers.not_listens_new 0 hs

/-- A socket is indexed for the broadcast and the peer of its subscription. -/
theorem Indexed.subscription_of_viewer (hi : h.Indexed) (hs : s ∈ h.viewerSockets b p) :
    ∃ sub, h.subscriptions.get? s = some sub ∧ sub.broadcastId = b ∧ sub.peerId = p := by
  obtain ⟨sub, hsub, -, hb, hp⟩ := (hi.viewers s b p).mp hs
  exact ⟨sub, hsub, hb, hp⟩

theorem Indexed.subscription_of_listens (hi : h.Indexed) (hs : (h.subscribersAt b).Listens s) :
    ∃ sub, h.subscriptions.get? s = some sub ∧ sub.broadcastId = b := by
  obtain ⟨sub, hsub, -, hb⟩ := hi.listeners s b hs
  exact ⟨sub, hsub, hb⟩

/-- A socket whose subscription names no indexed broadcast is nowhere in the index. -/
theorem Indexed.not_indexed (hi : h.Indexed) (hnone : ∀ b ∈ h.subscribersByBroadcast,
    (h.subscriptions.get? s).map Subscription.broadcastId ≠ some b) :
    (∀ b p, s ∉ h.viewerSockets b p) ∧ ∀ b, ¬ (h.subscribersAt b).Listens s := by
  refine ⟨fun b p hs => ?_, fun b hs => ?_⟩
  · obtain ⟨sub, hsub, rfl, -⟩ := hi.subscription_of_viewer hs
    exact hnone _ (mem_subscribersByBroadcast_of_viewer hs) (by rw [hsub, Option.map_some])
  · obtain ⟨sub, hsub, rfl⟩ := hi.subscription_of_listens hs
    exact hnone _ (mem_subscribersByBroadcast_of_listens hs) (by rw [hsub, Option.map_some])

/-! ### The record of a broadcast without a socket -/

/-- The hub with the record of a broadcast replaced, or deleted where nobody is in it. -/
def reindexed (h : TrackerWebSocketHub) (b : BroadcastId) (remaining : BroadcastSubscribers) :
    TrackerWebSocketHub :=
  { h with
    subscribersByBroadcast :=
      if remaining.isEmpty then h.subscribersByBroadcast.delete b
      else h.subscribersByBroadcast.set b remaining }

section Reindexed

variable {sub : Subscription} {subscribers : BroadcastSubscribers}

theorem get?_reindexed_of_ne {b' : BroadcastId} (hne : b' ≠ b) (remaining : BroadcastSubscribers) :
    (h.reindexed b remaining).subscribersByBroadcast.get? b'
      = h.subscribersByBroadcast.get? b' := by
  dsimp only [reindexed]
  split_ifs
  · rw [OrderedMap.get?_delete, if_neg hne]
  · rw [OrderedMap.get?_set, if_neg hne]

/-- Without the socket of a subscription the viewers are the same, but for that socket. -/
theorem mem_viewerSockets_reindexed
    (hb : h.subscribersByBroadcast.get? sub.broadcastId = some subscribers) :
    x ∈ (h.reindexed sub.broadcastId (subscribers.remove s sub.peerId)).viewerSockets b p ↔
      x ∈ h.viewerSockets b p ∧ ¬ (b = sub.broadcastId ∧ p = sub.peerId ∧ x = s) := by
  have hat : h.subscribersAt sub.broadcastId = subscribers := by
    rw [subscribersAt, hb, Option.getD_some]
  rw [viewerSockets_eq, viewerSockets_eq, subscribersAt]
  by_cases hne : b = sub.broadcastId
  · have hmem : x ∈ (subscribers.remove s sub.peerId).viewersOf p ↔ _ :=
      BroadcastSubscribers.mem_viewersOf_remove
    rw [hne, hat]
    dsimp only [reindexed]
    split_ifs with hlast
    · rw [OrderedMap.get?_delete, if_pos rfl, Option.getD_none]
      have hnot := (BroadcastSubscribers.not_mem_of_isEmpty (x := x) (q := p) hlast).1
      refine iff_of_false (BroadcastSubscribers.mem_viewersOf_new 0) ?_
      simpa using mt hmem.mpr hnot
    · rw [OrderedMap.get?_set, if_pos rfl, Option.getD_some]
      simpa using hmem
  · rw [get?_reindexed_of_ne hne]
    simp [hne, subscribersAt]

theorem listens_reindexed
    (hb : h.subscribersByBroadcast.get? sub.broadcastId = some subscribers) :
    ((h.reindexed sub.broadcastId (subscribers.remove s sub.peerId)).subscribersAt b).Listens x ↔
      (h.subscribersAt b).Listens x ∧ ¬ (b = sub.broadcastId ∧ x = s) := by
  have hat : h.subscribersAt sub.broadcastId = subscribers := by
    rw [subscribersAt, hb, Option.getD_some]
  rw [subscribersAt]
  by_cases hne : b = sub.broadcastId
  · have hmem : (subscribers.remove s sub.peerId).Listens x ↔ _ :=
      BroadcastSubscribers.listens_remove
    rw [hne, hat]
    dsimp only [reindexed]
    split_ifs with hlast
    · rw [OrderedMap.get?_delete, if_pos rfl, Option.getD_none]
      have hnot := (BroadcastSubscribers.not_mem_of_isEmpty (x := x) (q := sub.peerId) hlast).2
      refine iff_of_false (BroadcastSubscribers.not_listens_new 0) ?_
      simpa using mt hmem.mpr hnot
    · rw [OrderedMap.get?_set, if_pos rfl, Option.getD_some]
      simpa using hmem
  · rw [get?_reindexed_of_ne hne]
    simp [hne, subscribersAt]

/-- A record that is left keeps its identity. -/
theorem reindexed_id
    (hb : h.subscribersByBroadcast.get? sub.broadcastId = some subscribers) (b : BroadcastId) :
    (h.reindexed sub.broadcastId (subscribers.remove s sub.peerId)).subscribersByBroadcast.get? b
        = none ∨
      (h.reindexed sub.broadcastId (subscribers.remove s sub.peerId)).subscribersId b
        = h.subscribersId b := by
  by_cases hne : b = sub.broadcastId
  · rw [hne, subscribersId, subscribersId, hb]
    dsimp only [reindexed]
    split_ifs with hlast
    · exact Or.inl (by rw [OrderedMap.get?_delete, if_pos rfl])
    · exact Or.inr (by rw [OrderedMap.get?_set, if_pos rfl]; rfl)
  · rw [subscribersId, get?_reindexed_of_ne hne]
    exact Or.inr rfl

theorem sameIndexBut_reindexed
    (hb : h.subscribersByBroadcast.get? sub.broadcastId = some subscribers) :
    SameIndexBut s h (h.reindexed sub.broadcastId (subscribers.remove s sub.peerId)) where
  viewers b p x hx := by simp [mem_viewerSockets_reindexed hb, hx]
  listeners b x hx := by simp [listens_reindexed hb, hx]
  kept b p x _ hmem := by
    rcases reindexed_id hb b with hnone | heq
    · rw [viewerSockets, hnone] at hmem
      exact absurd hmem (OrderedSet.not_mem_empty x)
    · exact heq
  fresh b id hsome := by
    rcases reindexed_id hb b with hnone | heq
    · rw [subscribersId, hnone] at hsome
      exact absurd hsome (by simp)
    · exact Or.inl (heq.symm.trans hsome)
  created := le_rfl

end Reindexed

/-- Everything unindexing does: the socket is nowhere in the index. -/
theorem unindexSubscription_spec (hi : h.Indexed) (s : SocketId) :
    SameIndexBut s h (h.unindexSubscription s) ∧
      (∀ b p, s ∉ (h.unindexSubscription s).viewerSockets b p) ∧
      (∀ b, ¬ ((h.unindexSubscription s).subscribersAt b).Listens s) ∧
      ∀ b ∈ (h.unindexSubscription s).subscribersByBroadcast, b ∈ h.subscribersByBroadcast := by
  have hsame : (∀ b ∈ h.subscribersByBroadcast,
        (h.subscriptions.get? s).map Subscription.broadcastId ≠ some b) →
      SameIndexBut s h h ∧ (∀ b p, s ∉ h.viewerSockets b p) ∧
        (∀ b, ¬ (h.subscribersAt b).Listens s) ∧
        ∀ b ∈ h.subscribersByBroadcast, b ∈ h.subscribersByBroadcast := fun hnone =>
    ⟨.refl s h, (hi.not_indexed hnone).1, (hi.not_indexed hnone).2, fun _ => id⟩
  unfold unindexSubscription
  cases hsub : h.subscriptions.get? s with
  | none => exact hsame fun b _ => by simp [hsub]
  | some sub =>
      dsimp only
      split_ifs with hempty
      · refine hsame fun b hb => ?_
        rw [hsub, Option.map_some, hempty]
        rintro heq
        obtain rfl := Option.some.inj heq
        exact hi.named hb
      cases hb : h.subscribersByBroadcast.get? sub.broadcastId with
      | none =>
          refine hsame fun b hmem => ?_
          rw [hsub, Option.map_some]
          rintro heq
          obtain rfl := Option.some.inj heq
          rw [OrderedMap.mem_iff_isSome, hb] at hmem
          exact absurd hmem (by simp)
      | some subscribers =>
          refine ⟨sameIndexBut_reindexed hb, fun b p hmem => ?_, fun b hmem => ?_, fun b hmem => ?_⟩
          · obtain ⟨hold, hne⟩ := (mem_viewerSockets_reindexed hb).mp hmem
            obtain ⟨sub', hsub', rfl, rfl⟩ := hi.subscription_of_viewer hold
            obtain rfl := Option.some.inj (hsub.symm.trans hsub')
            exact hne ⟨rfl, rfl, rfl⟩
          · obtain ⟨hold, hne⟩ := (listens_reindexed hb).mp hmem
            obtain ⟨sub', hsub', rfl⟩ := hi.subscription_of_listens hold
            obtain rfl := Option.some.inj (hsub.symm.trans hsub')
            exact hne ⟨rfl, rfl⟩
          · by_cases hne : b = sub.broadcastId
            · rw [hne]
              exact OrderedMap.mem_of_get? hb
            · have hget := get?_reindexed_of_ne (h := h) hne (subscribers.remove s sub.peerId)
              exact OrderedMap.mem_iff_isSome.mpr (hget ▸ OrderedMap.mem_iff_isSome.mp hmem)

/-- The record a new subscriber is added to. -/
theorem setSubscription_index (h : TrackerWebSocketHub) (s : SocketId) (sub : Subscription) :
    (h.setSubscription s sub).subscribersByBroadcast =
        (h.unindexSubscription s).subscribersByBroadcast.set sub.broadcastId
          ((((h.unindexSubscription s).subscribersByBroadcast.get? sub.broadcastId).getD
            (.new h.subscribersCreated)).add s sub) ∧
      (h.setSubscription s sub).subscribersCreated =
        if sub.broadcastId ∈ (h.unindexSubscription s).subscribersByBroadcast then
          h.subscribersCreated
        else h.subscribersCreated + 1 := by
  obtain ⟨index, hindex⟩ := h.unindexSubscription_eq s
  unfold setSubscription
  rw [hindex]
  dsimp only
  cases hb : index.get? sub.broadcastId with
  | none => exact ⟨rfl, (if_neg (OrderedMap.get?_eq_none_iff.mp hb)).symm⟩
  | some subscribers => exact ⟨rfl, (if_pos (OrderedMap.mem_of_get? hb)).symm⟩

/-- Everything a new subscription does to the index. -/
theorem setSubscription_spec (hi : h.Indexed) (s : SocketId) (sub : Subscription) :
    SameIndexBut s h (h.setSubscription s sub) ∧
      (∀ b p, s ∈ (h.setSubscription s sub).viewerSockets b p ↔
        sub.neighborView = true ∧ sub.broadcastId = b ∧ sub.peerId = p) ∧
      (∀ b, ((h.setSubscription s sub).subscribersAt b).Listens s →
        sub.neighborView = false ∧ sub.broadcastId = b) ∧
      ∀ b ∈ (h.setSubscription s sub).subscribersByBroadcast,
        b ∈ h.subscribersByBroadcast ∨ b = sub.broadcastId := by
  obtain ⟨hsame, hviewer, hlistener, hmem⟩ := unindexSubscription_spec hi s
  obtain ⟨hindex, hcreated⟩ := h.setSubscription_index s sub
  have hucreated : (h.unindexSubscription s).subscribersCreated = h.subscribersCreated := by
    obtain ⟨index, hu⟩ := h.unindexSubscription_eq s
    rw [hu]
  set u := h.unindexSubscription s with hu
  set record := ((u.subscribersByBroadcast.get? sub.broadcastId).getD
    (.new h.subscribersCreated)) with hrecord
  have hat : ∀ b, (h.setSubscription s sub).subscribersAt b =
      if b = sub.broadcastId then record.add s sub else u.subscribersAt b := by
    intro b
    rw [subscribersAt, hindex, OrderedMap.get?_set]
    split_ifs <;> rfl
  have hview : ∀ b p x, x ∈ (h.setSubscription s sub).viewerSockets b p ↔
      x ∈ u.viewerSockets b p ∨
        x = s ∧ sub.neighborView = true ∧ sub.broadcastId = b ∧ sub.peerId = p := by
    intro b p x
    rw [viewerSockets_eq, viewerSockets_eq, hat]
    split_ifs with hb
    · have hbase : record.viewersOf p = (u.subscribersAt sub.broadcastId).viewersOf p := by
        rw [hrecord, subscribersAt]
        cases u.subscribersByBroadcast.get? sub.broadcastId <;> rfl
      rw [BroadcastSubscribers.mem_viewersOf_add, hbase, hb]
      refine or_congr_right ?_
      constructor
      · rintro ⟨hn, hp, hx⟩
        exact ⟨hx, hn, rfl, hp.symm⟩
      · rintro ⟨hx, hn, -, hp⟩
        exact ⟨hn, hp.symm, hx⟩
    · exact (or_iff_left fun hself => hb hself.2.2.1.symm).symm
  have hlisten : ∀ b x, ((h.setSubscription s sub).subscribersAt b).Listens x ↔
      (u.subscribersAt b).Listens x ∨
        x = s ∧ sub.neighborView = false ∧ sub.broadcastId = b := by
    intro b x
    rw [hat]
    split_ifs with hb
    · have hbase : record.Listens x ↔ (u.subscribersAt sub.broadcastId).Listens x := by
        rw [hrecord, subscribersAt]
        cases u.subscribersByBroadcast.get? sub.broadcastId <;> exact Iff.rfl
      rw [BroadcastSubscribers.listens_add, hbase, hb]
      refine or_congr_right ?_
      constructor
      · rintro ⟨hn, hx⟩
        exact ⟨hx, hn, rfl⟩
      · rintro ⟨hx, hn, -⟩
        exact ⟨hn, hx⟩
    · exact (or_iff_left fun hself => hb hself.2.2.symm).symm
  have hid : ∀ b, (h.setSubscription s sub).subscribersId b =
      if b = sub.broadcastId then some record.id else u.subscribersId b := by
    intro b
    rw [subscribersId, hindex, OrderedMap.get?_set]
    split_ifs
    · rw [Option.map_some, BroadcastSubscribers.add_id]
    · rfl
  have hgrow : h.subscribersCreated ≤ (h.setSubscription s sub).subscribersCreated := by
    rw [hcreated]
    split_ifs <;> omega
  refine ⟨⟨?_, ?_, ?_, ?_, hgrow⟩, ?_, ?_, ?_⟩
  · intro b p x hx
    rw [hview, ← hsame.viewers b p x hx]
    exact or_iff_left fun hself => hx hself.1
  · intro b x hx
    rw [hlisten, ← hsame.listeners b x hx]
    exact or_iff_left fun hself => hx hself.1
  · intro b p x hx hmem'
    have hold : x ∈ u.viewerSockets b p := ((hview b p x).mp hmem').resolve_right
      fun hself => hx hself.1
    rw [← hsame.kept b p x hx hold, hid]
    split_ifs with hb
    · cases hget : u.subscribersByBroadcast.get? b with
      | none =>
          rw [viewerSockets, hget] at hold
          exact absurd hold (OrderedSet.not_mem_empty x)
      | some subscribers => rw [hrecord, ← hb, subscribersId, hget]; rfl
    · rfl
  · intro b id hsome
    rw [hid] at hsome
    split_ifs at hsome with hb
    · obtain rfl := Option.some.inj hsome
      cases hget : u.subscribersByBroadcast.get? b with
      | none =>
          have hnot : sub.broadcastId ∉ u.subscribersByBroadcast :=
            hb ▸ OrderedMap.get?_eq_none_iff.mp hget
          rw [hcreated, if_neg hnot, hrecord, ← hb, hget]
          exact Or.inr ⟨le_rfl, Nat.lt_succ_self _⟩
      | some subscribers =>
          refine (hsame.fresh b _ ?_).imp_right fun hfresh => ⟨hfresh.1, by omega⟩
          rw [hrecord, ← hb, subscribersId, hget]
          rfl
    · exact (hsame.fresh b id hsome).imp_right fun hfresh => ⟨hfresh.1, by omega⟩
  · intro b p
    rw [hview]
    simp [hviewer]
  · intro b hmem'
    rcases (hlisten b s).mp hmem' with hold | hnew
    · exact absurd hold (hlistener b)
    · exact hnew.2
  · intro b hmem'
    rw [hindex, OrderedMap.mem_set] at hmem'
    exact hmem'.imp_left (hmem b)

/-- The index stays right when it and the subscriptions change for one socket. -/
theorem Indexed.of_sameIndexBut (hi : h.Indexed) (hsame : SameIndexBut s h h')
    (hsubs : ∀ x, x ≠ s → h'.subscriptions.get? x = h.subscriptions.get? x)
    (hviewer : ∀ b p, s ∈ h'.viewerSockets b p ↔ ∃ sub, h'.subscriptions.get? s = some sub ∧
      sub.neighborView = true ∧ sub.broadcastId = b ∧ sub.peerId = p)
    (hlistener : ∀ b, (h'.subscribersAt b).Listens s → ∃ sub,
      h'.subscriptions.get? s = some sub ∧ sub.neighborView = false ∧ sub.broadcastId = b)
    (hnamed : "" ∉ h'.subscribersByBroadcast) (hself : s ∈ h'.subscriptions → s ∈ h'.sockets)
    (hsockets : ∀ x ∈ h.sockets, x ∈ h'.sockets) : h'.Indexed where
  viewers x b p := by
    by_cases hx : x = s
    · rw [hx]
      exact hviewer b p
    · rw [hsame.viewers b p x hx, hsubs x hx]
      exact hi.viewers x b p
  listeners x b := by
    by_cases hx : x = s
    · rw [hx]
      exact hlistener b
    · rw [hsame.listeners b x hx, hsubs x hx]
      exact hi.listeners x b
  named := hnamed
  connected x hmem := by
    by_cases hx : x = s
    · subst hx
      exact hself hmem
    · rw [OrderedMap.mem_iff_isSome, hsubs x hx, ← OrderedMap.mem_iff_isSome] at hmem
      exact hsockets x (hi.connected x hmem)
  created b id hsome := by
    rcases hsame.fresh b id hsome with hold | hnew
    · exact lt_of_lt_of_le (hi.created b id hold) hsame.created
    · exact hnew.2

theorem Indexed.setSubscription (hi : h.Indexed) {sub : Subscription}
    (hb : sub.broadcastId ≠ "") (hs : s ∈ h.sockets) : (h.setSubscription s sub).Indexed := by
  obtain ⟨hsame, hviewer, hlistener, hmem⟩ := setSubscription_spec hi s sub
  obtain ⟨index, created, heq⟩ := h.setSubscription_eq s sub
  have hget : ∀ x, (h.setSubscription s sub).subscriptions.get? x =
      if x = s then some sub else h.subscriptions.get? x := by
    intro x
    rw [heq]
    exact OrderedMap.get?_set ..
  have hsockets : (h.setSubscription s sub).sockets = h.sockets := by rw [heq]
  refine hi.of_sameIndexBut hsame (fun x hx => by rw [hget, if_neg hx]) ?_ ?_ ?_ ?_ ?_
  · intro b p
    rw [hviewer, hget, if_pos rfl]
    exact ⟨fun hsub => ⟨sub, rfl, hsub⟩, fun ⟨_, he, hsub⟩ => Option.some.inj he ▸ hsub⟩
  · intro b hlistens
    rw [hget, if_pos rfl]
    exact ⟨sub, rfl, hlistener b hlistens⟩
  · intro hempty
    rcases hmem "" hempty with hold | he
    · exact hi.named hold
    · exact hb he.symm
  · intro _
    rwa [hsockets]
  · intro x hx
    rwa [hsockets]

/-- A socket that is unindexed, with what remains of its subscription. -/
theorem Indexed.unindexed (hi : h.Indexed) (subscriptions : OrderedMap SocketId Subscription)
    (sockets : OrderedMap SocketId Socket)
    (hsubs : ∀ x, x ≠ s → subscriptions.get? x = h.subscriptions.get? x)
    (hquiet : ∀ sub, subscriptions.get? s = some sub → sub.neighborView = false)
    (hself : s ∈ subscriptions → s ∈ sockets) (hsockets : ∀ x ∈ h.sockets, x ∈ sockets) :
    Indexed { h.unindexSubscription s with subscriptions := subscriptions, sockets := sockets } ∧
      SameIndexBut s h
        { h.unindexSubscription s with subscriptions := subscriptions, sockets := sockets } := by
  obtain ⟨hsame, hviewer, hlistener, hmem⟩ := unindexSubscription_spec hi s
  have hsame' : SameIndexBut s h
      { h.unindexSubscription s with subscriptions := subscriptions, sockets := sockets } :=
    ⟨hsame.viewers, hsame.listeners, hsame.kept, hsame.fresh, hsame.created⟩
  refine ⟨hi.of_sameIndexBut hsame' hsubs (fun b p => ?_) (fun b hl => absurd hl (hlistener b))
    (fun hempty => hi.named (hmem "" hempty)) hself hsockets, hsame'⟩
  refine iff_of_false (hviewer b p) ?_
  rintro ⟨sub, hsub, hview, -⟩
  exact absurd (hview.symm.trans (hquiet sub hsub)) (by simp)

theorem Indexed.close (hi : h.Indexed) (s : SocketId) : (h.close s).Indexed :=
  hi.congr rfl rfl rfl fun _ hx => OrderedMap.mem_modify.mpr hx

theorem removeSocket_eq (h : TrackerWebSocketHub) (s : SocketId) :
    ∃ index, h.removeSocket s =
      { h.close s with
        subscriptions := h.subscriptions.delete s
        subscribersByBroadcast := index } := by
  obtain ⟨index, hindex⟩ := (h.close s).unindexSubscription_eq s
  refine ⟨index, ?_⟩
  unfold removeSocket
  rw [hindex]
  rfl

theorem removeSocket_spec (hi : h.Indexed) (s : SocketId) :
    (h.removeSocket s).Indexed ∧ SameIndexBut s h (h.removeSocket s) := by
  obtain ⟨index, hindex⟩ := (h.close s).unindexSubscription_eq s
  have hdrop := (hi.close s).unindexed (h.subscriptions.delete s) (h.close s).sockets
    (fun x hx => by rw [OrderedMap.get?_delete, if_neg hx]; rfl)
    (fun sub hsub => by rw [OrderedMap.get?_delete, if_pos rfl] at hsub; cases hsub)
    (fun hmem => absurd rfl (OrderedMap.mem_delete.mp hmem).2) (fun _ hx => hx)
  have heq : h.removeSocket s = { (h.close s).unindexSubscription s with
      subscriptions := h.subscriptions.delete s, sockets := (h.close s).sockets } := by
    unfold removeSocket
    rw [hindex]
    rfl
  rw [heq]
  obtain ⟨hindexed, hviewers, hlisteners, hkept, hfresh, hcreated⟩ := hdrop
  exact ⟨hindexed, hviewers, hlisteners, hkept, hfresh, hcreated⟩

theorem dropSubscriber_eq (h : TrackerWebSocketHub) (s : SocketId) :
    ∃ index, h.dropSubscriber s =
      { h.close s with
        subscriptions := h.subscriptions.set s EMPTY_SUBSCRIPTION
        subscribersByBroadcast := index } := by
  obtain ⟨index, hindex⟩ := h.unindexSubscription_eq s
  refine ⟨index, ?_⟩
  unfold dropSubscriber
  rw [hindex]
  rfl

theorem dropSubscriber_spec (hi : h.Indexed) (hs : s ∈ h.sockets) :
    (h.dropSubscriber s).Indexed ∧ SameIndexBut s h (h.dropSubscriber s) := by
  obtain ⟨index, hindex⟩ := h.unindexSubscription_eq s
  have hdrop := hi.unindexed (h.subscriptions.set s EMPTY_SUBSCRIPTION) (h.close s).sockets
    (fun x hx => by rw [OrderedMap.get?_set, if_neg hx])
    (fun sub hsub => by
      rw [OrderedMap.get?_set, if_pos rfl] at hsub
      exact Option.some.inj hsub ▸ rfl)
    (fun _ => OrderedMap.mem_modify.mpr hs) (fun _ hx => OrderedMap.mem_modify.mpr hx)
  have heq : h.dropSubscriber s = { h.unindexSubscription s with
      subscriptions := h.subscriptions.set s EMPTY_SUBSCRIPTION
      sockets := (h.close s).sockets } := by
    unfold dropSubscriber
    rw [hindex]
    rfl
  rw [heq]
  exact hdrop

/-- A new socket that subscribed to nothing yet. -/
theorem Indexed.connected_fresh (hi : h.Indexed) (hs : s ∉ h.sockets) (socket : Socket) :
    Indexed { h with
      sockets := h.sockets.set s socket
      subscriptions := h.subscriptions.set s EMPTY_SUBSCRIPTION } := by
  have hnone : h.subscriptions.get? s = none :=
    OrderedMap.get?_eq_none_iff.mpr fun hmem => hs (hi.connected s hmem)
  have hget : (h.subscriptions.set s EMPTY_SUBSCRIPTION).get? s = some EMPTY_SUBSCRIPTION := by
    rw [OrderedMap.get?_set, if_pos rfl]
  refine hi.of_sameIndexBut (s := s) ⟨fun _ _ _ _ => Iff.rfl, fun _ _ _ => Iff.rfl,
    fun _ _ _ _ _ => rfl, fun _ _ => Or.inl, le_rfl⟩
    (fun x hx => by rw [OrderedMap.get?_set, if_neg hx]) (fun b p => ?_) (fun b hl => ?_)
    hi.named (fun _ => OrderedMap.mem_set.mpr (Or.inr rfl))
    fun x hx => OrderedMap.mem_set.mpr (Or.inl hx)
  · refine iff_of_false (fun hmem => ?_) ?_
    · obtain ⟨sub, hsub, -⟩ := (hi.viewers s b p).mp hmem
      exact absurd (hsub.symm.trans hnone) (by simp)
    · rintro ⟨sub, hsub, hview, -⟩
      obtain rfl := Option.some.inj (hget.symm.trans hsub)
      exact absurd hview (by decide)
  · obtain ⟨sub, hsub, -⟩ := hi.listeners s b hl
    exact absurd (hsub.symm.trans hnone) (by simp)

end TrackerWebSocketHub

end OpenStreamGrid
