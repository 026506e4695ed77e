import OpenStreamGrid.Tracker.HubSteps

/-!
# Between two handlers

Within a handler the store is ahead of the views and the views are ahead of the
directories; when it returns, only stored peers are in the views and every
neighbor-view client follows its view again. Both are shown here for every
effect of `StepEffect`, whatever is asked of the copies; what a flush keeps is
reduced to starting it and sending one slice.
-/

namespace OpenStreamGrid

namespace TrackerWebSocketHub

variable {h h' : TrackerWebSocketHub} {s : SocketId} {b : BroadcastId} {p q : PeerId}

/-- What holds between two handlers. -/
structure Steady (h : TrackerWebSocketHub) : Prop extends Sound h where
  registered : ∀ b q, q ∈ h.members b → q ∈ h.stored b
  scheduled : ∀ b, b ∉ h.flushing → h.immediates.get? b = none

theorem Sound.members_of_shown (hsound : h.Sound) (hq : q ∈ h.shown b p) : q ∈ h.members b := by
  obtain ⟨v, hv, hq⟩ := hq
  exact ⟨v, hv, (NeighborViews.mem_members_of_mem_viewOf (hsound.views v hv) hq).2⟩

/-- A tracker that starts over. -/
theorem steady_new (perTurn size : ℕ) (random : Stream' Draw) {store : TrackerStore}
    (hkeyed : ∀ b p peer, store.getPeer b p = some peer → peer.id = p) :
    (TrackerWebSocketHub.new perTurn size random store).Steady := by
  have hviews : ∀ v, (TrackerWebSocketHub.new perTurn size random store).neighborViews = some v →
      v = .new size random := by
    intro v hv
    unfold TrackerWebSocketHub.new at hv
    dsimp only at hv
    split_ifs at hv
    exact (Option.some.inj hv).symm
  refine ⟨⟨⟨?_, ?_, ?_, ?_, ?_⟩, ?_, hkeyed, ?_⟩, ?_, fun b _ => rfl⟩
  · refine fun s b p => iff_of_false (OrderedSet.not_mem_empty s) ?_
    rintro ⟨sub, hsub, -⟩
    cases hsub
  · exact fun s b hs => absurd hs (BroadcastSubscribers.not_listens_new 0)
  · exact OrderedMap.get?_eq_none_iff.mp rfl
  · exact fun s hs => absurd hs (OrderedMap.get?_eq_none_iff.mp rfl)
  · exact fun b id hid => nomatch hid
  · intro v hv
    obtain rfl := hviews v hv
    exact fun b views hb => nomatch hb
  · exact fun s b p hs => absurd hs (OrderedSet.not_mem_empty s)
  · rintro b q ⟨v, hv, hq⟩
    obtain rfl := hviews v hv
    exact absurd hq List.not_mem_nil

/-! ## The store changes under the hub -/

theorem Sound.withStore (hsound : h.Sound) {store : TrackerStore}
    (hkeyed : ∀ b q peer, store.getPeer b q = some peer → peer.id = q) :
    Sound { h with store := store } :=
  ⟨hsound.indexed.congr rfl rfl rfl fun _ => id, hsound.views, hkeyed, hsound.viewing⟩

theorem Unnoticed.withStore (h : TrackerWebSocketHub) (store : TrackerStore) :
    Unnoticed h { h with store := store } :=
  ⟨fun _ _ _ => id, fun _ _ _ _ _ hget _ => hget, fun _ _ _ _ => rfl, fun _ _ => Or.inl, le_rfl⟩

/-- A peer is stored that was not. -/
theorem Sound.withPeer (hsound : h.Sound) {store : TrackerStore} {peer : Peer}
    (hid : peer.id = q) (hstore : ∀ b' q', store.getPeer b' q'
      = if b' = b ∧ q' = q then some peer else h.store.getPeer b' q') :
    Sound { h with store := store } := by
  refine hsound.withStore fun b' q' found hfound => ?_
  rw [hstore] at hfound
  split_ifs at hfound with hbq
  · rw [← Option.some.inj hfound, hid, hbq.2]
  · exact hsound.keyed b' q' found hfound

/-- Peers are forgotten. -/
theorem Sound.forget (hsound : h.Sound) {store : TrackerStore} {gone : BroadcastId → PeerId → Prop}
    [∀ b q, Decidable (gone b q)]
    (hstore : ∀ b q, store.getPeer b q = if gone b q then none else h.store.getPeer b q) :
    Sound { h with store := store } := by
  refine hsound.withStore fun b q found hfound => ?_
  rw [hstore] at hfound
  split_ifs at hfound
  exact hsound.keyed b q found hfound

/-! ## Departures -/

theorem not_stored_of_removed {removed : List StalePeer} {store : TrackerStore}
    (hstore : ∀ b q, store.getPeer b q = if ⟨b, q⟩ ∈ removed then none else h.store.getPeer b q) :
    ∀ x ∈ removed, x.peerId ∉ TrackerWebSocketHub.stored { h with store := store } x.broadcastId := by
  intro x hx hmem
  rw [mem_stored_iff, hstore, if_pos hx] at hmem
  cases hmem

/-- What it does that some peers, stored no longer, leave. -/
structure Departed (h h' : TrackerWebSocketHub) (removed : List StalePeer) : Prop where
  sound : h'.Sound
  store : h'.store = h.store
  index : h'.subscribersByBroadcast = h.subscribersByBroadcast
  created : h'.subscribersCreated = h.subscribersCreated
  immediates : h'.immediates = h.immediates
  flushing : h'.flushing = h.flushing
  members : ∀ b q, q ∈ h'.members b ↔ q ∈ h.members b ∧ ⟨b, q⟩ ∉ removed
  pending : ∀ b q, h'.pendingAt b q = if ⟨b, q⟩ ∈ removed then none else h.pendingAt b q
  following : ∀ good exact, (∀ b p, exact b p → p ∈ h.stored b) →
    (∀ b p q peer, h.store.getPeer b q = some peer → good b p q {x | x ∈ peer.segments}) →
    h.Following good exact → h'.Following good exact

theorem pendingAt_modify (h : TrackerWebSocketHub) (b : BroadcastId) (q : PeerId)
    (b' : BroadcastId) (q' : PeerId) :
    ((h.pendingInventory.modify b fun updates => updates.delete q).get? b').bind
        (fun updates => updates.get? q')
      = if b' = b ∧ q' = q then none else h.pendingAt b' q' := by
  rw [OrderedMap.get?_modify, pendingAt]
  by_cases hb : b' = b
  · subst hb
    cases h.pendingInventory.get? b' with
    | none => simp
    | some updates => simp [OrderedMap.get?_delete]
  · simp [hb]

theorem peersLeft_departed : ∀ (removed : List StalePeer) {h : TrackerWebSocketHub}, h.Sound →
    (∀ x ∈ removed, x.peerId ∉ h.stored x.broadcastId) → Departed h (h.peersLeft removed) removed
  | [], h, hsound, _ => by
      refine ⟨hsound, rfl, rfl, rfl, rfl, rfl, fun b q => ?_, fun b q => ?_,
        fun _ _ _ _ hf => hf⟩
      · exact (and_iff_left List.not_mem_nil).symm
      · exact (if_neg List.not_mem_nil).symm
  | x :: rest, h, hsound, habsent => by
      obtain ⟨hx, hrest⟩ := List.forall_mem_cons.mp habsent
      obtain ⟨h₁, out, heq, hh, hpending, hmembers⟩ := peerLeft_spec hsound hx
      have hstored : ∀ b, (h₁.deliver out).stored b = h.stored b := by
        intro b
        change {q | (h₁.store.getPeer b q).isSome = true} = _
        rw [hh.store]
        rfl
      obtain hlater := peersLeft_departed rest (hsound.handled hh) fun y hy => by
        rw [hstored]
        exact hrest y hy
      have hpeersLeft : h.peersLeft (x :: rest) = (h₁.deliver out).peersLeft rest := by
        rw [peersLeft, List.foldl_cons, heq]
        rfl
      have hhead : ∀ b q, (⟨b, q⟩ : StalePeer) = x ↔ b = x.broadcastId ∧ q = x.peerId := by
        intro b q
        constructor
        · rintro rfl
          exact ⟨rfl, rfl⟩
        · rintro ⟨rfl, rfl⟩
          rfl
      rw [hpeersLeft]
      refine ⟨hlater.sound, hlater.store.trans hh.store, hlater.index.trans hh.index,
        hlater.created.trans hh.created, hlater.immediates.trans hh.immediates,
        hlater.flushing.trans hh.flushing, fun b q => ?_, fun b q => ?_, ?_⟩
      · have hfirst : q ∈ (h₁.deliver out).members b ↔ _ := hmembers b q
        rw [hlater.members, hfirst, List.mem_cons, hhead, not_or, and_assoc]
      · have hfirst : (h₁.deliver out).pendingAt b q
            = if b = x.broadcastId ∧ q = x.peerId then none else h.pendingAt b q := by
          change (h₁.pendingInventory.get? b).bind _ = _
          rw [hpending]
          exact h.pendingAt_modify ..
        rw [hlater.pending, hfirst]
        simp only [List.mem_cons, hhead]
        split_ifs <;> simp_all
      · intro good exact hexact hgood hf
        refine hlater.following good exact (fun b p hp => ?_) (fun b p q peer hpeer => ?_)
          (hf.handled hh hexact hgood)
        · rw [hstored]
          exact hexact b p hp
        · change h₁.store.getPeer b q = some peer at hpeer
          rw [hh.store] at hpeer
          exact hgood b p q peer hpeer

/-! ## What a step keeps -/

/-- Nothing but sockets, subscriptions and their index. -/
theorem subscribed_eq (h : TrackerWebSocketHub) (out out' : Outgoing) (s : SocketId)
    (sub : Subscription) : ∃ sockets subscriptions index created,
      ((h.deliver out).setSubscription s sub).deliver out' =
        { h with
          sockets := sockets
          subscriptions := subscriptions
          subscribersByBroadcast := index
          subscribersCreated := created } := by
  obtain ⟨index, created, heq⟩ := (h.deliver out).setSubscription_eq s sub
  rw [heq]
  exact ⟨_, _, _, _, rfl⟩

theorem StepEffect.sound {e : HubEvent} (heff : StepEffect h e h') (hsteady : h.Steady) :
    h'.Sound ∧ ∀ b q, q ∈ h'.members b → q ∈ h'.stored b := by
  cases heff with
  | @stored _ store hstore =>
      refine ⟨hsteady.withStore fun b q peer hpeer => ?_, fun b q hq => ?_⟩
      · obtain ⟨old, hold, hid, -⟩ := hstore.getPeer hpeer
        exact hid.symm.trans (hsteady.keyed b q old hold)
      · exact (hstore.isSome b q).trans (hsteady.registered b q hq)
  | @joined t b request options store peer habsent hid hsegments hstore =>
      have hget : store.getPeer b peer.id = some peer := by
        rw [hstore, hid, if_pos ⟨rfl, rfl⟩]
      have hsound := hsteady.withPeer hid hstore
      obtain ⟨h₁, out, heq, hh, -, -, -, hnew⟩ := peerJoined_spec hsound hget
      rw [heq]
      refine ⟨hsound.handled hh, fun b' q hq => ?_⟩
      change (h₁.store.getPeer b' q).isSome = true
      rw [hh.store]
      rcases hnew b' q hq with hold | ⟨rfl, hq⟩
      · have hq := hsteady.registered b' q hold
        change (store.getPeer b' q).isSome = true
        rw [hstore]
        split_ifs
        · rfl
        · exact hq
      · exact hq
  | @left _ removed store hstore =>
      have hleft := peersLeft_departed removed (hsteady.forget hstore) (not_stored_of_removed hstore)
      refine ⟨hleft.sound, fun b q hq => ?_⟩
      obtain ⟨hold, hnot⟩ := (hleft.members b q).mp hq
      change (TrackerStore.getPeer _ b q).isSome = true
      rw [hleft.store]
      change (store.getPeer b q).isSome = true
      rw [hstore, if_neg hnot]
      exact hsteady.registered b q hold
  | @unregistered _ b store hstore =>
      obtain ⟨hsound, -, hkept, -, -, -, -, hmembers⟩ :=
        broadcastRemoved_spec (hsteady.forget hstore) b
      refine ⟨hsound, fun b' q hq => ?_⟩
      obtain ⟨hold, hne⟩ := (hmembers b' q).mp hq
      change (TrackerStore.getPeer _ b' q).isSome = true
      rw [hkept]
      change (store.getPeer b' q).isSome = true
      rw [hstore, if_neg hne]
      exact hsteady.registered b' q hold
  | unnoticed _ hsound hu hstore hviews =>
      refine ⟨hsound, fun b q hq => ?_⟩
      unfold TrackerWebSocketHub.stored
      rw [hstore]
      unfold members at hq
      rw [hviews] at hq
      exact hsteady.registered b q hq
  | @subscribed _ s sub peers h₁ out hh _ _ hnew hb hs _ hviewing =>
      have hsound := hsteady.handled hh
      have hset := hsound.setSubscription hb ((mem_sockets_deliver h₁ out).mpr (hh.sockets ▸ hs))
        fun hview => hh.viewing.trans (hviewing hview)
      refine ⟨hset.deliver _, ?_⟩
      obtain ⟨_, _, _, _, heq⟩ := h₁.subscribed_eq out
        [(s, .peerList sub.broadcastId peers)] s sub
      rw [heq]
      intro b q hq
      change (h₁.store.getPeer b q).isSome = true
      rw [hh.store]
      rcases hnew b q hq with hold | ⟨rfl, hknown⟩
      · exact hsteady.registered b q hold
      · exact hknown
  | @reported _ _ _ b q _ m store old new _ _ hold hid _ _ hstore =>
      have hsound := hsteady.withPeer (hid.trans (hsteady.keyed b q old hold)) hstore
      obtain ⟨out, timers, pendingInventory, -, heq, -⟩ := publishInventory_spec hsound m
      rw [heq]
      refine ⟨(hsound.deliver out).flushing _ _ _ _ _, fun b' q' hq => ?_⟩
      change (store.getPeer b' q').isSome = true
      rw [hstore]
      split_ifs
      · rfl
      · exact hsteady.registered b' q' hq

/-- Every effect leaves a hub that holds together. -/
theorem StepEffect.steady {e : HubEvent} (heff : StepEffect h e h') (hsteady : h.Steady) :
    h'.Steady := by
  obtain ⟨hsound, hregistered⟩ := heff.sound hsteady
  obtain ⟨himmediates, hflushing⟩ := heff.scheduling
  refine ⟨hsound, hregistered, fun b hb => ?_⟩
  rw [himmediates]
  exact hsteady.scheduled b (hflushing ▸ hb)

variable {good good' : BroadcastId → PeerId → PeerId → Set SegmentId → Prop}
variable {exact exact' : BroadcastId → PeerId → Prop}

/-- Who knows nobody else, when less is asked. -/
theorem Following.exactly (hf : h.Following good exact)
    (hknown : ∀ s b p socket, s ∈ h.viewerSockets b p → h.sockets.get? s = some socket →
      socket.isOpen = true → exact' b p → exact b p ∨ ∀ q ∈ (socket.directory b).peers, q = p) :
    h.Following good exact' := by
  refine hf.mono (.refl h) (fun s b p _ q hq hqs => ⟨hq, hqs, fun _ => id⟩) ?_
  intro s b p socket hs hget hopen hexact
  rcases hknown s b p socket hs hget hopen hexact with hold | halone
  · exact Or.inr ⟨hold, fun _ => id⟩
  · exact Or.inl halone

/-- **Every effect keeps the clients following**, if the copies that were good
stay good where the subscribers object of the broadcast is still the same. -/
theorem StepEffect.following {e : HubEvent} (heff : StepEffect h e h') (hsteady : h.Steady)
    (hf : h.Following good exact)
    (hrecord : ∀ b p q peer, h.store.getPeer b q = some peer → good b p q {x | x ∈ peer.segments})
    (hrecord' : ∀ b p q peer, h'.store.getPeer b q = some peer →
      good' b p q {x | x ∈ peer.segments})
    (hexact' : ∀ b p, exact' b p → p ∈ h'.stored b)
    (hgood : ∀ s b p q copy, s ∈ h'.viewerSockets b p → h'.subscribersId b = h.subscribersId b →
      q ∈ h.stored b → q ∈ h'.stored b → good b p q copy → good' b p q copy)
    (hknown : ∀ s b p socket, s ∈ h.viewerSockets b p → h.sockets.get? s = some socket →
      socket.isOpen = true → exact' b p → exact b p ∨ ∀ q ∈ (socket.directory b).peers, q = p) :
    h'.Following good' exact' := by
  have hf' := hf.exactly hknown
  cases heff with
  | @stored _ store hstore =>
      refine hf'.mono (.withStore h store) (fun s b p hs q hq hqs => ?_)
        fun _ _ _ _ _ _ _ hexact => Or.inr ⟨hexact, fun _ => id⟩
      have hq' : q ∈ h.stored b := (hstore.isSome b q).symm.trans hqs
      exact ⟨hq, hq', fun copy => hgood s b p q copy hs rfl hq' hqs⟩
  | @joined t b request options store peer habsent hid hsegments hstore =>
      have hget : store.getPeer b peer.id = some peer := by
        rw [hstore, hid, if_pos ⟨rfl, rfl⟩]
      have hsound := hsteady.withPeer hid hstore
      obtain ⟨h₁, out, heq, hh, -, -, -, -⟩ := peerJoined_spec hsound hget
      rw [heq] at hrecord' hexact' hgood ⊢
      have hstored : ∀ b', (h₁.deliver out).stored b'
          = TrackerWebSocketHub.stored { h with store := store } b' := by
        intro b'
        change {q | (h₁.store.getPeer b' q).isSome = true} = _
        rw [hh.store]
        rfl
      refine Following.handled (h := { h with store := store }) ?_ hh
        (fun b' p hp => hstored b' ▸ hexact' b' p hp) fun b' p q peer' hpeer => ?_
      · refine hf'.mono (.withStore h store) (fun s b' p hs q hq hqs => ?_)
          fun _ _ _ _ _ _ _ hexact => Or.inr ⟨hexact, fun _ => id⟩
        have hq' := hsteady.registered b' q (hsteady.members_of_shown hq)
        refine ⟨hq, hq', fun copy => hgood s b' p q copy ?_ ?_ hq' (hstored b' ▸ hqs)⟩
        · rw [hh.viewerSockets]
          exact hs
        · change h₁.subscribersId b' = _
          rw [subscribersId, hh.index]
          rfl
      · refine hrecord' b' p q peer' ?_
        change h₁.store.getPeer b' q = some peer'
        rw [hh.store]
        exact hpeer
  | @left _ removed store hstore =>
      have hsound := hsteady.forget hstore
      have hleft := peersLeft_departed removed hsound (not_stored_of_removed hstore)
      have hstored : ∀ b, (peersLeft { h with store := store } removed).stored b
          = TrackerWebSocketHub.stored { h with store := store } b := by
        intro b
        unfold TrackerWebSocketHub.stored
        rw [hleft.store]
      refine hleft.following good' exact' (fun b p hp => hstored b ▸ hexact' b p hp)
        (fun b p q peer hpeer => ?_) ?_
      · refine hrecord' b p q peer ?_
        rw [hleft.store]
        exact hpeer
      · refine hf'.mono (.withStore h store) (fun s b p hs q hq hqs => ?_)
          fun _ _ _ _ _ _ _ hexact => Or.inr ⟨hexact, fun _ => id⟩
        have hq' := hsteady.registered b q (hsteady.members_of_shown hq)
        refine ⟨hq, hq', fun copy => hgood s b p q copy ?_ ?_ hq' (hstored b ▸ hqs)⟩
        · unfold viewerSockets
          rw [hleft.index]
          exact hs
        · rw [subscribersId, hleft.index]
          rfl
  | @unregistered _ b₀ store hstore =>
      have hsound := hsteady.forget hstore
      obtain ⟨-, hu, hkept, -, -, -, hshown, -⟩ := broadcastRemoved_spec hsound b₀
      have hu' := (Unnoticed.withStore h store).trans hu
      have hstored : ∀ b q, q ∈ (broadcastRemoved { h with store := store } b₀).stored b →
          b ≠ b₀ ∧ q ∈ h.stored b := by
        intro b q hq
        change (TrackerStore.getPeer _ b q).isSome = true at hq
        rw [hkept] at hq
        change (store.getPeer b q).isSome = true at hq
        rw [hstore] at hq
        split_ifs at hq with hb
        · cases hq
        · exact ⟨hb, hq⟩
      refine hf'.mono hu' (fun s b p hs q hq hqs => ?_) fun s b p _ _ _ _ hexact => ?_
      · have hq' := (hstored b q hqs).2
        exact ⟨((hshown b p q).mp hq).1, hq',
          fun copy => hgood s b p q copy hs (hu'.kept s b p hs) hq' hqs⟩
      · have hne := (hstored b p (hexact' b p hexact)).1
        exact Or.inr ⟨hexact, fun q hq => (hshown b p q).mpr ⟨hq, hne⟩⟩
  | unnoticed _ hsound hu hstore hviews =>
      have hshown : ∀ b p, h'.shown b p = h.shown b p := fun b p => by
        unfold shown
        rw [hviews]
      have hstored : ∀ b, h'.stored b = h.stored b := fun b => by
        unfold TrackerWebSocketHub.stored
        rw [hstore]
      refine hf'.mono hu (fun s b p hs q hq hqs => ?_) fun s b p _ _ _ _ hexact => ?_
      · have hq' : q ∈ h.stored b := hstored b ▸ hqs
        exact ⟨hshown b p ▸ hq, hq',
          fun copy => hgood s b p q copy hs (hu.kept s b p hs) hq' hqs⟩
      · exact Or.inr ⟨hexact, fun q hq => (hshown b p).symm ▸ hq⟩
  | @subscribed _ s sub peers h₁ out hh _ _ hnew hb hs hself _ _ hlisted hall =>
      have hsound := hsteady.handled hh
      obtain ⟨hsame, -, -⟩ := setSubscription_spec hsound.indexed s sub
      obtain ⟨_, _, _, _, heq⟩ := h₁.subscribed_eq out
        [(s, .peerList sub.broadcastId peers)] s sub
      have hstore : (((h₁.deliver out).setSubscription s sub).deliver
          [(s, .peerList sub.broadcastId peers)]).store = h.store := by
        rw [heq]
        exact hh.store
      have hstored : ∀ b, (((h₁.deliver out).setSubscription s sub).deliver
          [(s, .peerList sub.broadcastId peers)]).stored b = h.stored b := by
        intro b
        unfold TrackerWebSocketHub.stored
        rw [hstore]
      have hstored₁ : ∀ b, (h₁.deliver out).stored b = h.stored b := by
        intro b
        change {q | (h₁.store.getPeer b q).isSome = true} = _
        rw [hh.store]
        rfl
      have hf₁ := hf'.handled hh (fun b p hp => hstored b ▸ hexact' b p hp) hrecord
      refine Following.subscribed hf₁ hsound ?_ ?_ ?_ ?_
      · intro x b p hx hview q hq copy
        refine hgood x b p q copy hview ?_ (hstored₁ b ▸ hq) ?_
        · refine (hsame.kept b p x hx hview).trans ?_
          change h₁.subscribersId b = _
          rw [subscribersId, hh.index]
          rfl
        · rw [hstored, ← hstored₁]
          exact hq
      · exact fun _ => hstored₁ sub.broadcastId ▸ hself
      · intro hview peer hpeer
        obtain ⟨hseen, hget⟩ := hlisted hview peer hpeer
        exact ⟨hseen, hrecord' _ _ _ peer (hstore ▸ hget)⟩
      · exact fun hview q hq => hall hview q (hstored₁ sub.broadcastId ▸ hq)
  | @reported _ _ _ b q _ m store old new _ _ hold hid _ _ hstore =>
      have hsound := hsteady.withPeer (hid.trans (hsteady.keyed b q old hold)) hstore
      obtain ⟨out, timers, pendingInventory, hquiet, heq, -⟩ := publishInventory_spec hsound m
      rw [heq] at hgood ⊢
      have hu := (Unnoticed.withStore h store).trans (.deliver hquiet)
      refine hf'.mono
        ⟨hu.viewers, hu.sockets, hu.kept, hu.fresh, hu.created⟩ (fun s b' p hs q' hq hqs => ?_)
        fun _ _ _ _ _ _ _ hexact => Or.inr ⟨hexact, fun _ => id⟩
      have hq' := hsteady.registered b' q' (hsteady.members_of_shown hq)
      exact ⟨hq, hq', fun copy => hgood s b' p q' copy hs rfl hq' hqs⟩

/-! ## What a flush keeps -/

/-- Messages that no neighbor-view socket gets. -/
def Quiet (h : TrackerWebSocketHub) (out : Outgoing) : Prop :=
  ∀ s b p, s ∈ h.viewerSockets b p → messagesTo s out = []

/-- Messages to others, and what is pending or scheduled. -/
theorem Unnoticed.fanOut {out : Outgoing} (hquiet : h.Quiet out)
    (flushing flushRequested : OrderedSet BroadcastId)
    (immediates : OrderedMap BroadcastId FlushJob) (timers : List BroadcastId)
    (pendingInventory : OrderedMap BroadcastId (OrderedMap PeerId PendingInventory)) :
    Unnoticed h { h.deliver out with
      flushing := flushing, flushRequested := flushRequested, immediates := immediates
      timers := timers, pendingInventory := pendingInventory } := by
  have hu : Unnoticed h (h.deliver out) := .deliver hquiet
  exact ⟨hu.viewers, hu.sockets, hu.kept, hu.fresh, hu.created⟩

/-- The snapshot a flush starts with. -/
def snapshot (pending : OrderedMap PeerId PendingInventory) (subscribers : BroadcastSubscribers) :
    FlushJob :=
  ⟨subscribers.id, toUpdates pending, subscribers.viewers.keys, 0⟩

/-- A property is kept by every flush if it is kept by the parts of one: starting
a flush is scheduling its first slice. -/
structure FlushInvariant (I : TrackerWebSocketHub → Prop) : Prop where
  steady : ∀ h, I h → h.Steady
  waits : ∀ (h : TrackerWebSocketHub) timers flushRequested, I h →
    I { h with timers := timers, flushRequested := flushRequested }
  /-- Nothing is pending, or nobody is there to be served in slices. -/
  ends : ∀ (h : TrackerWebSocketHub) b out, I h → b ∉ h.flushing → h.Quiet out →
    ((∀ q, h.pendingAt b q = none) ∨ ∀ s p, s ∉ h.viewerSockets b p) →
    I ((h.taken b).deliver out)
  starts : ∀ (h : TrackerWebSocketHub) b out pending subscribers, I h → b ∉ h.flushing →
    h.Quiet out → h.pendingInventory.get? b = some pending →
    h.subscribersByBroadcast.get? b = some subscribers →
    I { (h.taken b).deliver out with
      flushing := h.flushing.insert b
      immediates := h.immediates.set b (snapshot pending subscribers) }
  slice : ∀ (h : TrackerWebSocketHub) b job immediates, I h → h.immediates.get? b = some job →
    immediates.get? b = none → (∀ b', b' ≠ b → immediates.get? b' = h.immediates.get? b') →
    I ({ h with immediates := immediates }.sendSlice b job).1

/-- A flush that is over is not running. -/
theorem not_mem_flushing_of_over {job : FlushJob} (hover : (h.sendSlice b job).2 = true) :
    b ∉ (h.sendSlice b job).1.flushing := by
  unfold sendSlice at hover ⊢
  dsimp only at hover ⊢
  split_ifs at hover ⊢
  exact fun hb => (OrderedSet.mem_erase.mp hb).2 rfl

variable {I : TrackerWebSocketHub → Prop}

theorem FlushInvariant.startFlush (hI : FlushInvariant I) (hh : I h) (hb : b ∉ h.flushing) :
    I (h.startFlush b).1 ∧ ((h.startFlush b).2 = true → b ∉ (h.startFlush b).1.flushing) := by
  obtain ⟨out, hquiet, ⟨heq, hend⟩ | ⟨pending, subscribers, hpending, hsubscribers, heq⟩⟩ :=
    startFlush_cases (hI.steady h hh).toSound b
  · rw [heq]
    exact ⟨hI.ends h b out hh hb hquiet hend, fun hover => absurd hover (by simp)⟩
  · have hstart := hI.starts h b out pending subscribers hh hb hquiet hpending hsubscribers
    have hslice := hI.slice _ b (snapshot pending subscribers) h.immediates hstart
      ((OrderedMap.get?_set ..).trans (if_pos rfl)) ((hI.steady h hh).scheduled b hb)
      fun b' hne => ((OrderedMap.get?_set ..).trans (if_neg hne)).symm
    rw [heq]
    exact ⟨hslice, not_mem_flushing_of_over⟩

theorem FlushInvariant.flushRequestedNext (hI : FlushInvariant I) (hh : I h)
    (hb : b ∉ h.flushing) : I (h.flushRequestedNext b) := by
  unfold TrackerWebSocketHub.flushRequestedNext
  split_ifs
  · exact (hI.startFlush (hI.waits h h.timers (h.flushRequested.erase b) hh) hb).1
  · exact hh

theorem steady_flush : FlushInvariant Steady where
  steady _ hsteady := hsteady
  waits h _ _ hsteady := ⟨hsteady.flushing _ _ _ _ _, hsteady.registered, hsteady.scheduled⟩
  ends h _ out hsteady _ _ _ :=
    ⟨(hsteady.flushing _ _ _ _ _).deliver out, hsteady.registered, hsteady.scheduled⟩
  starts h b out pending subscribers hsteady _ _ _ _ := by
    refine ⟨(hsteady.deliver out).flushing _ _ _ _ _, hsteady.registered, fun b' hb' => ?_⟩
    obtain ⟨hne, hidle⟩ := not_or.mp (mt OrderedSet.mem_insert.mpr hb')
    exact (OrderedMap.get?_set ..).trans ((if_neg hidle).trans (hsteady.scheduled b' hne))
  slice h b job immediates hsteady hjob hnone hothers := by
    have hsound : Sound { h with immediates := immediates } := hsteady.flushing _ _ _ _ _
    have hkeeps := hsound.sendSlice b job
    have hscheduled : ∀ b', b' ≠ b → b' ∉ h.flushing → immediates.get? b' = none :=
      fun b' hne hb' => (hothers b' hne).trans (hsteady.scheduled b' hb')
    obtain ⟨sockets, ⟨-, heq⟩ | ⟨-, heq⟩⟩ :=
      sendSlice_cases { h with immediates := immediates } b job
    · rw [heq] at hkeeps ⊢
      refine ⟨hkeeps, hsteady.registered, fun b' hb' => ?_⟩
      by_cases hne : b' = b
      · rw [hne] at hb'
        exact absurd (hjob.symm.trans (hsteady.scheduled b hb')) (by simp)
      · exact (OrderedMap.get?_set ..).trans ((if_neg hne).trans (hscheduled b' hne hb'))
    · rw [heq] at hkeeps ⊢
      refine ⟨hkeeps, hsteady.registered, fun b' hb' => ?_⟩
      by_cases hne : b' = b
      · exact hne ▸ hnone
      · exact hscheduled b' hne fun hmem => hb' (OrderedSet.mem_erase.mpr ⟨hmem, hne⟩)

/-- **The flush rule.** -/
theorem FlushInvariant.step (hI : FlushInvariant I) (hh : I h) (heff : FlushEffect h h') :
    I h' := by
  cases heff with
  | batchTimer b =>
      have hwaits := fun flushRequested => hI.waits h (h.timers.erase b) flushRequested hh
      unfold flushInventory
      split_ifs with hb
      · exact hwaits _
      · obtain ⟨hstart, hover⟩ := hI.startFlush (b := b) (hwaits h.flushRequested) hb
        dsimp only
        split_ifs with hdone
        · exact hI.flushRequestedNext hstart (hover hdone)
        · exact hstart
  | @flushTurn b job hjob =>
      have hslice := hI.slice h b job (h.immediates.delete b) hh hjob
        ((OrderedMap.get?_delete ..).trans (if_pos rfl))
        fun b' hne => (OrderedMap.get?_delete ..).trans (if_neg hne)
      unfold sendViewerBatches
      dsimp only
      split_ifs with hover
      · exact hI.flushRequestedNext hslice (not_mem_flushing_of_over hover)
      · exact hslice

theorem Steady.step {e : HubEvent} (hsteady : h.Steady) (hstep : h.step e = some h') :
    h'.Steady := by
  rcases step_effect hsteady.toSound hstep with heff | heff
  · exact heff.steady hsteady
  · exact steady_flush.step hsteady heff

/-! ## Running a small tracker -/

theorem zero_isDraw : (0 : ℚ) ≤ 0 ∧ (0 : ℚ) < 1 := ⟨le_rfl, zero_lt_one⟩

/-- A tracker over an empty store, with views of up to four neighbors. -/
def start : TrackerWebSocketHub :=
  .new 1 4 (NeighborViews.always ⟨0, zero_isDraw⟩) (.new 10)

theorem init_start : system.init start :=
  ⟨1, 4, _, .new 10, rfl, fun _ _ _ hpeer => nomatch hpeer⟩

def endOf (events : List HubEvent) : TrackerWebSocketHub :=
  (system.run start events).getD start

theorem run_endOf {events : List HubEvent} (hrun : (system.run start events).isSome = true) :
    system.run start events = some (endOf events) := by
  obtain ⟨h, hh⟩ := Option.isSome_iff_exists.mp hrun
  rw [endOf, hh, Option.getD_some]

def joinLive (p : PeerId) : HubEvent := .joinPeer 0 "live" ⟨p, "http://" ++ p, none, none⟩ ⟨none⟩

def viewLive (s : SocketId) (p : PeerId) : HubEvent :=
  .received s true 0
    (.subscribe "live" p (some [WS_FEATURE_INVENTORY_BATCH, WS_FEATURE_NEIGHBOR_VIEW]))

/-- Two peers join, and the first opens a neighbor-view socket. -/
def firstViewer : List HubEvent :=
  [.registerBroadcast 0 ⟨"live", "https://origin/live.m3u8", none⟩, joinLive "p", joinLive "q",
    .connected 0 ⟨"live", "p"⟩, viewLive 0 "p"]

end TrackerWebSocketHub

end OpenStreamGrid
