import OpenStreamGrid.Tracker.HubInvariant

/-!
# Neighbor membership agreement

The set of peers a neighbor-view client knows is split from its view by nothing
but a handler in progress: between two handlers an open neighbor-view socket of
a stored peer knows that peer and the peers in its view. The exception is a
peer that leaves and joins again while its socket stays open: its view starts
anew, and nobody tells the client that its old neighbors are gone.
-/

namespace OpenStreamGrid

namespace TrackerWebSocketHub

variable {h h' : TrackerWebSocketHub} {s : SocketId} {b : BroadcastId} {p q : PeerId}

/-! ## The property -/

/-- The client knows its own peer and those in its view, and nobody else. -/
def KnowsItsView (h : TrackerWebSocketHub) (b : BroadcastId) (p : PeerId) (socket : Socket) :
    Prop :=
  ∃ v view, h.neighborViews = some v ∧ v.view b p = some view ∧
    ∀ q, q ∈ (socket.directory b).peers ↔ q = p ∨ q ∈ view

/-- Every open neighbor-view socket whose own peer is stored knows its view. -/
def MembershipAgrees (h : TrackerWebSocketHub) : Prop :=
  ∀ s sub socket, h.subscriptions.get? s = some sub → sub.neighborView = true →
    h.sockets.get? s = some socket → socket.isOpen = true →
    (h.store.getPeer sub.broadcastId sub.peerId).isSome = true →
    h.KnowsItsView sub.broadcastId sub.peerId socket

/-- A peer that joins anew has no open neighbor-view socket left whose client
still knows neighbors from before. -/
def ForgottenOnJoin (h : TrackerWebSocketHub) : HubEvent → Prop
  | .joinPeer _ b request _ => h.store.getPeer b request.id = none →
      ∀ s ∈ (h.viewerSockets b request.id).toList, ∀ socket ∈ h.sockets.get? s,
        socket.isOpen = true → ∀ q ∈ (socket.directory b).peers.keys, q = request.id
  | _ => True

/-! ## The invariant -/

/-- Between two handlers: who has a neighbor-view socket is in the views, and
the directories follow them exactly. -/
structure Agreeing (h : TrackerWebSocketHub) : Prop extends Steady h where
  present : ∀ s b p, s ∈ h.viewerSockets b p → p ∈ h.stored b → p ∈ h.members b
  following : h.Following (fun _ _ _ _ => True) fun b p => p ∈ h.stored b

theorem Agreeing.agrees (h₀ : h.Agreeing) : h.MembershipAgrees := by
  intro s sub socket hsub hview hget hopen hstored
  have hs : s ∈ h.viewerSockets sub.broadcastId sub.peerId :=
    (h₀.indexed.viewers s _ _).mpr ⟨sub, hsub, hview, rfl, rfl⟩
  have hfollows := h₀.following s _ _ socket hs hget hopen
  obtain ⟨v, hv, hmember⟩ := h₀.present s _ _ hs hstored
  obtain ⟨view, hsome⟩ := Option.isSome_iff_exists.mp
    ((NeighborViews.isSome_view_iff (h₀.views v hv)).mpr hmember)
  have hshown : ∀ q, q ∈ h.shown sub.broadcastId sub.peerId ↔ q ∈ view := by
    intro q
    rw [shown_of_eq hv, Set.mem_ofPred_eq, NeighborViews.viewOf_eq, hsome, Option.getD_some]
  refine ⟨v, view, hv, hsome, fun q => ⟨fun hq => ?_, ?_⟩⟩
  · exact (hfollows.known hstored q hq).imp_right (hshown q).mp
  · rintro (rfl | hq)
    · exact hfollows.own
    · have hq' := (hshown q).mpr hq
      exact (hfollows.shown q hq' (h₀.registered _ q (h₀.members_of_shown hq'))).1

/-- Only a join makes a peer stored. -/
theorem StepEffect.stored_new {e : HubEvent} (heff : StepEffect h e h') (hp : p ∈ h'.stored b)
    (hnew : p ∉ h.stored b) : ∃ t request options,
      e = .joinPeer t b request options ∧ request.id = p ∧ h.store.getPeer b p = none := by
  rw [mem_stored_iff] at hp hnew
  cases heff with
  | stored _ hstore => exact absurd ((hstore.isSome b p).symm.trans hp) hnew
  | joined habsent hid hsegments hstore =>
      rw [(peerJoined_untouched ..).store, hstore] at hp
      split_ifs at hp with hbp
      · obtain ⟨rfl, rfl⟩ := hbp
        exact ⟨_, _, _, rfl, rfl, habsent⟩
      · exact absurd hp hnew
  | left _ hstore =>
      rw [(peersLeft_untouched ..).store, hstore] at hp
      split_ifs at hp
      · cases hp
      · exact absurd hp hnew
  | unregistered _ hstore =>
      rw [(broadcastRemoved_untouched ..).store, hstore] at hp
      split_ifs at hp
      · cases hp
      · exact absurd hp hnew
  | unnoticed _ _ _ hstore => exact absurd (hstore ▸ hp) hnew
  | subscribed _ hh =>
      rw [(subscribed_untouched ..).store, hh.store] at hp
      exact absurd hp hnew
  | reported _ _ hold _ _ _ hstore =>
      rw [(publishInventory_untouched ..).store, hstore] at hp
      split_ifs at hp with hbq
      · obtain ⟨rfl, rfl⟩ := hbq
        exact absurd (Option.isSome_iff_exists.mpr ⟨_, hold⟩) hnew
      · exact absurd hp hnew

/-- Whoever has a neighbor-view socket stays in the views while stored. -/
theorem StepEffect.present {e : HubEvent} (heff : StepEffect h e h') (hsteady : h.Steady)
    (hpresent : ∀ s b p, s ∈ h.viewerSockets b p → p ∈ h.stored b → p ∈ h.members b) :
    ∀ s b p, s ∈ h'.viewerSockets b p → p ∈ h'.stored b → p ∈ h'.members b := by
  intro s b p hs hp
  rw [mem_stored_iff] at hp
  cases heff with
  | stored _ hstore => exact hpresent s b p hs ((hstore.isSome b p).symm.trans hp)
  | @joined t b₀ request options store peer habsent hid hsegments hstore =>
      rw [(peerJoined_untouched ..).store, hstore] at hp
      have hget : store.getPeer b₀ peer.id = some peer := by
        rw [hstore, hid, if_pos ⟨rfl, rfl⟩]
      obtain ⟨h₁, out, heq, hh, -, hself, hsub, -⟩ :=
        peerJoined_spec (hsteady.withPeer hid hstore) hget
      rw [heq] at hs ⊢
      rw [hh.viewerSockets] at hs
      split_ifs at hp with hbp
      · obtain ⟨rfl, rfl⟩ := hbp
        exact hid ▸ hself (hsteady.viewing s b request.id hs)
      · exact hsub b p (hpresent s b p hs hp)
  | @left _ removed store hstore =>
      rw [(peersLeft_untouched ..).store, hstore] at hp
      have hleft := peersLeft_departed removed (hsteady.forget hstore) (not_stored_of_removed hstore)
      split_ifs at hp with hgone
      · cases hp
      · unfold viewerSockets at hs
        rw [hleft.index] at hs
        exact (hleft.members b p).mpr ⟨hpresent s b p hs hp, hgone⟩
  | @unregistered _ b₀ store hstore =>
      rw [(broadcastRemoved_untouched ..).store, hstore] at hp
      obtain ⟨-, hu, -, -, -, -, -, hmembers⟩ :=
        broadcastRemoved_spec (hsteady.forget hstore) b₀
      split_ifs at hp with hb
      · cases hp
      · exact (hmembers b p).mpr ⟨hpresent s b p (hu.viewers s b p hs) hp, hb⟩
  | unnoticed _ _ hu hstore hviews =>
      rw [hstore] at hp
      unfold members
      rw [hviews]
      exact hpresent s b p (hu.viewers s b p hs) hp
  | @subscribed _ s₀ sub peers h₁ out hh _ hmembers _ _ _ _ _ hmember =>
      rw [(subscribed_untouched ..).store, hh.store] at hp
      obtain ⟨hsame, hviewer, -⟩ := setSubscription_spec (hsteady.handled hh).indexed s₀ sub
      have hview := hsame.viewers b p s
      obtain ⟨_, _, _, _, heq⟩ := h₁.subscribed_eq out
        [(s₀, .peerList sub.broadcastId peers)] s₀ sub
      unfold members
      rw [heq]
      by_cases hs₀ : s = s₀
      · subst hs₀
        obtain ⟨hneighbor, rfl, rfl⟩ := (hviewer b p).mp hs
        exact hmember hneighbor
      · have hold := (hview hs₀).mp hs
        rw [hh.viewerSockets] at hold
        exact hmembers b p (hpresent s b p hold hp)
  | @reported _ _ _ b₀ q _ m store old new _ _ hold hid _ _ hstore =>
      rw [(publishInventory_untouched ..).store, hstore] at hp
      have hsound := hsteady.withPeer (hid.trans (hsteady.keyed b₀ q old hold)) hstore
      obtain ⟨out, timers, pendingInventory, -, heq, -⟩ := publishInventory_spec hsound m
      rw [heq] at hs ⊢
      refine hpresent s b p hs ?_
      split_ifs at hp with hbp
      · rw [hbp.1, hbp.2]
        exact Option.isSome_iff_exists.mpr ⟨old, hold⟩
      · exact hp

theorem Agreeing.step {e : HubEvent} (h₀ : h.Agreeing) (hok : h.ForgottenOnJoin e)
    (heff : StepEffect h e h') : h'.Agreeing := by
  refine ⟨heff.steady h₀.toSteady, heff.present h₀.toSteady h₀.present,
    heff.following h₀.toSteady h₀.following (fun _ _ _ _ _ => trivial) (fun _ _ _ _ _ => trivial)
      (fun _ _ => id) (fun _ _ _ _ _ _ _ _ _ => id) ?_⟩
  intro s b p socket hs hget hopen hp
  by_cases hold : p ∈ h.stored b
  · exact Or.inl hold
  · obtain ⟨t, request, options, rfl, rfl, habsent⟩ := heff.stored_new hp hold
    exact Or.inr fun q hq => hok habsent s hs socket hget hopen q (OrderedMap.mem_iff_mem_keys.mp hq)

theorem agreeing_flush : FlushInvariant Agreeing where
  steady _ h₀ := h₀.toSteady
  waits h _ _ h₀ := ⟨steady_flush.waits h _ _ h₀.toSteady, h₀.present, h₀.following⟩
  ends h b out h₀ hb hquiet hend :=
    ⟨steady_flush.ends h b out h₀.toSteady hb hquiet hend, h₀.present,
      h₀.following.unnoticed (.fanOut hquiet _ _ _ _ _) rfl rfl⟩
  starts h b out pending subscribers h₀ hb hquiet hpending hsubscribers :=
    ⟨steady_flush.starts h b out pending subscribers h₀.toSteady hb hquiet hpending hsubscribers,
      h₀.present, h₀.following.unnoticed (.fanOut hquiet _ _ _ _ _) rfl rfl⟩
  slice h b job immediates h₀ hjob hnone hothers := by
    have hsteady := steady_flush.slice h b job immediates h₀.toSteady hjob hnone hothers
    have hsound : Sound { h with immediates := immediates } := h₀.flushing _ _ _ _ _
    have hslice := Following.sendSlice (h := { h with immediates := immediates }) h₀.following
      hsound b job (fun _ _ _ _ => True) fun _ _ _ _ _ _ _ _ => trivial
    obtain ⟨sockets, ⟨-, heq⟩ | ⟨-, heq⟩⟩ :=
      sendSlice_cases { h with immediates := immediates } b job
    all_goals
      rw [heq] at hslice hsteady ⊢
      exact ⟨hsteady, h₀.present, hslice⟩

/-- **Neighbor membership agreement**: whatever joins, leaves, sweeps,
subscriptions and flushes happened and whatever was drawn, every open
neighbor-view socket of a stored peer knows exactly its own peer and its view,
unless an ID joined again while a client of its former self was listening. -/
theorem membership_agrees (hr : system.Reachable ForgottenOnJoin h) : h.MembershipAgrees := by
  refine Agreeing.agrees (hr.invariant Agreeing ?_ ?_)
  · rintro h ⟨perTurn, size, random, store, rfl, hkeyed⟩
    refine ⟨steady_new perTurn size random hkeyed, ?_, ?_⟩
    · exact fun s b p hs => absurd hs (OrderedSet.not_mem_empty s)
    · exact fun s b p socket hs => absurd hs (OrderedSet.not_mem_empty s)
  · intro h e h' h₀ hok hstep
    rcases step_effect h₀.toSound hstep with heff | hflush
    · exact h₀.step hok heff
    · exact agreeing_flush.step h₀ hflush

/-! ## Two runs -/

instance (h : TrackerWebSocketHub) : ∀ e, Decidable (h.ForgottenOnJoin e)
  | .joinPeer _ _ _ _ => inferInstanceAs (Decidable (_ → ∀ _ ∈ _, ∀ _ ∈ _, _ → ∀ _ ∈ _, _))
  | .registerBroadcast _ _ | .unregisterBroadcast _ | .leavePeer _ _ | .removeStalePeers _ _
  | .heartbeat _ _ _ _ | .reportStats _ _ _ _ | .connected _ _ | .received _ _ _ _ | .closing _
  | .closed _ | .batchTimer _ | .flushTurn _ => isTrue trivial

/-- It leaves, and comes back after its socket was closed. -/
def properReturn : List HubEvent :=
  firstViewer ++
    [.leavePeer "live" "p", .closed 0, joinLive "r", joinLive "p", .connected 1 ⟨"live", "p"⟩,
      viewLive 1 "p", .leavePeer "live" "q"]

theorem membership_agrees_return : (endOf properReturn).MembershipAgrees :=
  membership_agrees ((TransitionSystem.Reachable.init init_start).append_run
    (show system.RunOk ForgottenOnJoin start properReturn by decide +kernel)
    (run_endOf (by decide +kernel)))

/-- Both leave, and the first comes back while its socket is still open. -/
def returnOnOpenSocket : List HubEvent :=
  firstViewer ++ [.leavePeer "live" "p", .leavePeer "live" "q", joinLive "p"]

/-- The client still knows the neighbor it had before, who is gone. -/
theorem returning_viewer_knows_too_much :
    ¬ ∀ h : TrackerWebSocketHub, system.Reachable (fun _ _ => True) h → h.MembershipAgrees := by
  intro hall
  have hagrees := hall (endOf returnOnOpenSocket)
    (TransitionSystem.reachable_of_run init_start (run_endOf (by decide +kernel)))
  have hsocket : ((endOf returnOnOpenSocket).sockets.get? 0).isSome = true := by decide +kernel
  obtain ⟨socket, hget⟩ := Option.isSome_iff_exists.mp hsocket
  have hknows : ∀ found ∈ (endOf returnOnOpenSocket).sockets.get? 0,
      found.isOpen = true ∧ "q" ∈ (found.directory "live").peers := by decide +kernel
  obtain ⟨hopen, hq⟩ := hknows socket hget
  obtain ⟨v, view, hv, hview, hiff⟩ := hagrees 0 ⟨"live", "p", true, true⟩ socket
    (by decide +kernel) rfl hget hopen (by decide +kernel)
  have hempty : ((endOf returnOnOpenSocket).neighborViews.bind fun v => v.view "live" "p")
      = some ∅ := by decide +kernel
  rw [hv, Option.bind_some, hview] at hempty
  obtain rfl := Option.some.inj hempty
  rcases (hiff "q").mp hq with hself | hseen
  · exact absurd hself (by decide)
  · exact OrderedSet.not_mem_empty "q" hseen

end TrackerWebSocketHub

end OpenStreamGrid
