import OpenStreamGrid.Tracker.HubMembership
import OpenStreamGrid.Tracker.SubscriptionIndex

/-!
# Who hears of a join

A first join is announced: to everyone who sees the whole audience, and to the
neighbor-view clients that get the new peer into their views. A join of a peer that is
present rewrites its record, and no WebSocket client is told.
-/

namespace OpenStreamGrid

namespace PeerDirectory

/-- A message that says of a peer, if anything, that it joined with one record. -/
def SaysOnly (b : BroadcastId) (stored : Peer) (m : WsServerMessage) : Prop :=
  (∃ peer, m = .peerJoined b peer ∧ (peer.id = stored.id → peer = stored)) ∨
    ∃ p, m = .peerLeft b p ∧ p ≠ stored.id

theorem get?_handleMessage_peerJoined (d : PeerDirectory) (peer : Peer) (q : PeerId) :
    (d.handleMessage (.peerJoined d.broadcastId peer)).peers.get? q =
      if q = peer.id then some peer else d.peers.get? q := by
  have hstep : d.handleMessage (.peerJoined d.broadcastId peer) =
      { d with peers := d.peers.set peer.id peer } := by
    simp [handleMessage, WsServerMessage.broadcastId]
  rw [hstep]
  exact OrderedMap.get?_set ..

theorem get?_handleMessage_peerLeft (d : PeerDirectory) (p q : PeerId) :
    (d.handleMessage (.peerLeft d.broadcastId p)).peers.get? q =
      if q = p then none else d.peers.get? q := by
  have hstep : d.handleMessage (.peerLeft d.broadcastId p) =
      { d with peers := d.peers.delete p } := by
    simp [handleMessage, WsServerMessage.broadcastId]
  rw [hstep]
  exact OrderedMap.get?_delete ..

/-- A directory that is told a record, and nothing else of its peer, holds the record. -/
theorem get?_handleMessages_told {b : BroadcastId} {stored : Peer} (ms : List WsServerMessage) :
    ∀ {d : PeerDirectory}, d.broadcastId = b → (∀ m ∈ ms, SaysOnly b stored m) →
      .peerJoined b stored ∈ ms ∨ d.peers.get? stored.id = some stored →
      (d.handleMessages ms).peers.get? stored.id = some stored := by
  induction ms with
  | nil => exact fun _ _ hheld => hheld.resolve_left List.not_mem_nil
  | cons m rest ih =>
      rintro d rfl honly htold
      obtain ⟨hm, hrest⟩ := List.forall_mem_cons.mp honly
      apply ih (handleMessage_broadcastId d m) hrest
      rcases hm with ⟨peer, rfl, hsame⟩ | ⟨p, rfl, hne⟩
      · rw [get?_handleMessage_peerJoined]
        by_cases hid : peer.id = stored.id
        · rw [if_pos hid.symm, hsame hid]
          exact Or.inr rfl
        · rw [if_neg (Ne.symm hid)]
          refine htold.imp_left fun hmem => ?_
          rcases List.mem_cons.mp hmem with heq | hmem
          · injection heq with _ heq
            exact absurd (congrArg (fun peer : Peer => peer.id) heq.symm) hid
          · exact hmem
      · rw [get?_handleMessage_peerLeft, if_neg (Ne.symm hne)]
        refine htold.imp_left fun hmem => ?_
        rcases List.mem_cons.mp hmem with heq | hmem
        · cases heq
        · exact hmem

end PeerDirectory

namespace TrackerWebSocketHub

variable {h h' : TrackerWebSocketHub} {s : SocketId} {b : BroadcastId} {p : PeerId}

/-- What is sent to an open socket is what its directory is told. -/
theorem directory_deliver {out : Outgoing} {socket : Socket}
    (hget : (h.deliver out).sockets.get? s = some socket) (hopen : socket.isOpen = true) :
    ∃ d : PeerDirectory, d.broadcastId = b ∧
      socket.directory b = d.handleMessages (messagesTo s out) := by
  rw [get?_sockets_deliver] at hget
  obtain ⟨old, -, rfl⟩ := Option.map_eq_some_iff.mp hget
  refine ⟨old.directory b, PeerDirectory.handleMessages_broadcastId .., ?_⟩
  have hopen' : old.isOpen = true := by
    by_contra hclosed
    rw [if_neg hclosed] at hopen
    exact hclosed hopen
  rw [if_pos hopen', Socket.directory, PeerDirectory.handleMessages_append]
  rfl

/-- A socket that has no neighbor view hears nothing of a fill. -/
theorem messagesTo_announceFill_of_not_viewer (hnone : ∀ q, s ∉ h.viewerSockets b q) (a : PeerId)
    (fill : NeighborViewFill) (lookup : PeerId → Option Peer) :
    messagesTo s (h.announceFill b a fill lookup) = [] := by
  have hsend : ∀ q m, messagesTo s (h.sendToViewer b q m) = [] := by
    intro q m
    rw [sendToViewer, messagesTo_sendToAll, if_neg (hnone q)]
  unfold announceFill
  simp only [messagesTo_append, messagesTo_flatMap, hsend]
  split_ifs <;> cases lookup a <;> simp [messagesTo_flatMap, hsend]

/-- What `peerJoined` sends, and the views it leaves. -/
theorem peerJoined_eq {peer : Peer}
    (hstored : h.store.getPeer b peer.id = some peer) :
    (h.neighborViews = none ∧
        h.peerJoined b peer = h.deliver (h.broadcast (.peerJoined b peer))) ∨
      ∃ views, h.seededViews b = some views ∧ h.peerJoined b peer =
        (h.topUp views b peer.id).deliver (h.broadcast (.peerJoined b peer) ++
          h.announceFill b peer.id ((views.add b peer.id).fill b peer.id).2
            (h.store.getPeer b)) := by
  have hlookup : (fun id => if id = peer.id then some peer else h.store.getPeer b id) =
      h.store.getPeer b := by
    funext id
    split_ifs with hid
    · rw [hid, hstored]
    · rfl
  unfold peerJoined
  cases hseed : h.seededViews b with
  | none => exact Or.inl ⟨Option.map_eq_none_iff.mp hseed, rfl⟩
  | some views =>
      refine Or.inr ⟨views, rfl, ?_⟩
      dsimp only
      rw [hlookup]
      rfl

/-- Everyone who sees the whole audience is sent what is broadcast, and nothing else. -/
theorem mem_messagesTo_broadcast {m m' : WsServerMessage}
    (hs : (h.subscribersAt m.broadcastId).Listens s) :
    m' ∈ messagesTo s (h.broadcast m) ↔ m' = m := by
  unfold subscribersAt at hs
  unfold broadcast
  cases hb : h.subscribersByBroadcast.get? m.broadcastId with
  | none =>
      rw [hb] at hs
      exact absurd hs (BroadcastSubscribers.not_listens_new 0)
  | some subscribers =>
      rw [hb, Option.getD_some] at hs
      dsimp only
      rw [messagesTo_append, messagesTo_sendToAll, messagesTo_sendToAll]
      rcases hs with hs | hs
      · rw [if_pos hs]
        split_ifs <;> simp
      · rw [if_pos hs]
        split_ifs <;> simp

/-- A subscriber of the whole audience holds the record of whoever joined. -/
theorem peerJoined_listener (hsound : h.Sound) {peer : Peer}
    (hstored : h.store.getPeer b peer.id = some peer) (hs : (h.subscribersAt b).Listens s)
    {socket : Socket} (hget : (h.peerJoined b peer).sockets.get? s = some socket)
    (hopen : socket.isOpen = true) : (socket.directory b).peers.get? peer.id = some peer := by
  have hnone : ∀ q, s ∉ h.viewerSockets b q := fun q hq => hsound.indexed.not_listens hq b hs
  have hheld : ∀ ms : List WsServerMessage, (∀ m, m ∈ ms ↔ m = .peerJoined b peer) →
      ∀ d : PeerDirectory, d.broadcastId = b →
        (d.handleMessages ms).peers.get? peer.id = some peer := by
    intro ms hms d hb
    refine PeerDirectory.get?_handleMessages_told ms hb (fun m hm => ?_)
      (Or.inl ((hms _).mpr rfl))
    exact Or.inl ⟨peer, (hms m).mp hm, fun _ => rfl⟩
  rcases peerJoined_eq hstored with ⟨-, heq⟩ | ⟨views, -, heq⟩
  · rw [heq] at hget
    obtain ⟨d, hb, hdirectory⟩ := directory_deliver hget hopen
    rw [hdirectory]
    exact hheld _ (fun m => mem_messagesTo_broadcast hs) d hb
  · rw [heq] at hget
    obtain ⟨d, hb, hdirectory⟩ := directory_deliver hget hopen
    rw [hdirectory, messagesTo_append, messagesTo_announceFill_of_not_viewer hnone,
      List.append_nil]
    exact hheld _ (fun m => mem_messagesTo_broadcast hs) d hb

/-- A neighbor-view client holds the record of a peer that joined into its view. -/
theorem peerJoined_viewer (hsound : h.Sound) {peer : Peer}
    (hstored : h.store.getPeer b peer.id = some peer) (hnew : peer.id ∉ h.shown b p)
    (hs : s ∈ h.viewerSockets b p) (hshown : peer.id ∈ (h.peerJoined b peer).shown b p)
    {socket : Socket} (hget : (h.peerJoined b peer).sockets.get? s = some socket)
    (hopen : socket.isOpen = true) : (socket.directory b).peers.get? peer.id = some peer := by
  rcases peerJoined_eq hstored with ⟨-, heq⟩ | ⟨views, hseed, heq⟩
  · rw [heq] at hshown
    exact absurd hshown hnew
  · obtain ⟨hwf, v, hv, hviews, -, -⟩ := seededViews_spec hsound hseed
    have hunseen : peer.id ∉ (views.add b peer.id).viewOf b p := by
      rw [NeighborViews.viewOf_add hwf, hviews]
      rw [shown_of_eq hv] at hnew
      exact hnew
    have hseen : peer.id ∈ ((views.add b peer.id).fill b peer.id).1.viewOf b p := by
      rw [heq] at hshown
      obtain ⟨v', hv', hq⟩ := hshown
      obtain rfl := Option.some.inj hv'
      exact hq
    have hother : peer.id ≠ p := by
      rintro rfl
      exact NeighborViews.not_mem_viewOf_self ((hwf.add b peer.id).fill b peer.id) b peer.id hseen
    have hfill := NeighborViews.fillDiff (hwf.add b peer.id) b peer.id
    obtain ⟨joined, left, hmessages, hjoined, hleft⟩ := exists_links_announceFill hsound.indexed hs
      peer.id ((views.add b peer.id).fill b peer.id).2 (h.store.getPeer b)
    -- the view shows a peer it did not show: its owner was taken as a watcher
    have hwatcher : p ∈ ((views.add b peer.id).fill b peer.id).2.reciprocal := by
      rcases (hfill.sees p peer.id).mp hseen with ⟨hold, -⟩ | ⟨hp, -⟩ | ⟨-, hmem⟩
      · exact absurd hold hunseen
      · exact absurd hp.symm hother
      · exact hmem
    rw [heq] at hget
    obtain ⟨d, hb, hdirectory⟩ := directory_deliver hget hopen
    rw [hdirectory, messagesTo_append, messagesTo_broadcast hsound.indexed hs, List.nil_append,
      hmessages]
    refine PeerDirectory.get?_handleMessages_told _ hb (fun m hm => ?_) (Or.inl ?_)
    · rcases List.mem_append.mp hm with hm | hm
      · obtain ⟨found, hfound, rfl⟩ := List.mem_map.mp hm
        refine Or.inl ⟨found, rfl, fun _ => ?_⟩
        rcases (hjoined found).mp hfound with ⟨hp, -⟩ | ⟨-, hget⟩
        · exact absurd hp hother
        · exact Option.some.inj (hget.symm.trans hstored)
      · obtain ⟨x, hx, rfl⟩ := List.mem_map.mp hm
        refine Or.inr ⟨x, rfl, ?_⟩
        rintro rfl
        exact hunseen (hfill.evicted _ ((hleft peer.id).mp hx)).2
    · refine List.mem_append_left _ (List.mem_map.mpr ⟨peer, ?_, rfl⟩)
      exact (hjoined peer).mpr (Or.inr ⟨hwatcher, hstored⟩)

/-! ## Joins -/

/-- Every open subscriber of the broadcast that knows the peer holds the address and the metadata
that are stored. -/
def Propagated (h : TrackerWebSocketHub) (b : BroadcastId) (q : PeerId) : Prop :=
  ∀ s d socket stored copy, h.BelongsIn s b d → h.sockets.get? s = some socket →
    socket.isOpen = true → h.store.getPeer b q = some stored →
    (socket.directory b).peers.get? q = some copy →
    copy.address = stored.address ∧ copy.metadata = stored.metadata

theorem BelongsIn.viewer (hsound : h.Sound) (hs : h.BelongsIn s b (.viewers p)) :
    s ∈ h.viewerSockets b p := by
  obtain ⟨sub, hsub, -, hb, hbucket⟩ := hs
  refine (hsound.indexed.viewers s b p).mpr ⟨sub, hsub, ?_, hb, ?_⟩
  · by_contra hview
    unfold Subscription.bucket at hbucket
    rw [if_neg hview] at hbucket
    split_ifs at hbucket
  · unfold Subscription.bucket at hbucket
    split_ifs at hbucket
    injection hbucket

theorem peerJoined_subscriptions (h : TrackerWebSocketHub) (b : BroadcastId) (peer : Peer) :
    (h.peerJoined b peer).subscriptions = h.subscriptions := by
  unfold peerJoined
  dsimp only
  split <;> rfl

/-- **What a join tells the subscribers.** After a first join every open subscriber of the whole
audience, and every open neighbor-view client whose view shows the new peer, holds its stored
record. A join of a peer that is present rewrites its record if it is accepted, and sends nothing. -/
theorem join_tells_subscribers (hr : system.Reachable (fun _ _ => True) h) {t : Timestamp}
    {request : PeerJoinRequest} {options : JoinPeerOptions}
    (hstep : h.step (.joinPeer t b request options) = some h') :
    (h.store.getPeer b request.id = none → ∀ stored,
      h'.store.getPeer b request.id = some stored → stored.toPeerJoinRequest = request ∧
      ∀ s d socket, h'.BelongsIn s b d → h'.sockets.get? s = some socket →
        socket.isOpen = true → (∀ p, d = .viewers p → request.id ∈ h'.shown b p) →
        (socket.directory b).peers.get? request.id = some stored) ∧
    (h.store.getPeer b request.id ≠ none → h'.sockets = h.sockets ∧
      ((h.store.joinPeerDetailed t b request options).isOk = true → ∃ stored,
        h'.store.getPeer b request.id = some stored ∧ stored.toPeerJoinRequest = request)) := by
  obtain ⟨hsteady, hplaced⟩ := steady_placed hr
  dsimp only [step] at hstep
  cases hjoin : h.store.joinPeerDetailed t b request options with
  | error _ =>
      rw [hjoin] at hstep
      obtain rfl := Option.some.inj hstep
      refine ⟨fun hnone stored hstored => ?_, fun _ => ⟨rfl, nofun⟩⟩
      rw [hnone] at hstored
      cases hstored
  | ok result =>
      obtain ⟨store, peer, already⟩ := result
      obtain ⟨hget, hid, hold, hnew⟩ := getPeer_joined hjoin
      have hrecord : store.getPeer b peer.id = some peer := by
        rw [hget, if_pos ⟨rfl, hid⟩]
      have hrequest : peer.toPeerJoinRequest = request := by
        obtain ⟨state, -, -, rfl, -⟩ := TrackerStore.joinPeerDetailed_ok.mp hjoin
        rfl
      rw [hjoin] at hstep
      cases already with
      | true =>
          obtain rfl := Option.some.inj hstep
          obtain ⟨old, hfound, -⟩ := hold rfl
          refine ⟨fun hnone => ?_, fun _ => ⟨rfl, fun _ => ⟨peer, hid ▸ hrecord, hrequest⟩⟩⟩
          rw [hfound] at hnone
          cases hnone
      | false =>
          obtain rfl := Option.some.inj hstep
          obtain ⟨habsent, -⟩ := hnew rfl
          refine ⟨fun _ stored hstored => ?_, fun hpresent => absurd habsent hpresent⟩
          rw [(peerJoined_untouched ..).store] at hstored
          obtain rfl : peer = stored := by
            rw [← hid] at hstored
            exact Option.some.inj (hrecord.symm.trans hstored)
          have hsound : Sound { h with store := store } := hsteady.withPeer hid hget
          refine ⟨hrequest, fun s d socket hs hsocket hopen hshown => ?_⟩
          have hbelongs : TrackerWebSocketHub.BelongsIn { h with store := store } s b d := by
            unfold BelongsIn at hs
            rwa [peerJoined_subscriptions] at hs
          have hbucket : s ∈ h.bucketAt b d := (hplaced.placed s b d).mpr hbelongs
          rw [← hid]
          cases d with
          | immediate => exact peerJoined_listener hsound hrecord (Or.inl hbucket) hsocket hopen
          | batched => exact peerJoined_listener hsound hrecord (Or.inr hbucket) hsocket hopen
          | viewers p =>
              have hunseen : peer.id ∉ h.shown b p := by
                intro hmem
                have hstored := hsteady.registered b _ (hsteady.members_of_shown hmem)
                rw [mem_stored_iff, hid, habsent] at hstored
                cases hstored
              exact peerJoined_viewer hsound hrecord hunseen (hbelongs.viewer hsound)
                (hid ▸ hshown p rfl) hsocket hopen

/-! ## Three runs -/

/-- A join from another address. -/
def joinMoved (p : PeerId) : HubEvent :=
  .joinPeer 0 "live" ⟨p, "http://moved", none, none⟩ ⟨none⟩

/-- A client of the whole audience. -/
def firstListener : List HubEvent :=
  [.registerBroadcast 0 ⟨"live", "https://origin/live.m3u8", none⟩, joinLive "p",
    .connected 0 ⟨"live", "p"⟩, .received 0 true 0 (.subscribe "live" "p" none)]

theorem join_tells_subscribers_listener : ∃ h' socket,
    (endOf firstListener).step (joinMoved "q") = some h' ∧ h'.sockets.get? 0 = some socket ∧
      ((socket.directory "live").peers.get? "q").map (fun peer => peer.address) =
        some "http://moved" := by
  have hr := TransitionSystem.reachable_of_run init_start
    (run_endOf (show (system.run start firstListener).isSome = true by decide +kernel))
  have hsome : ((endOf firstListener).step (joinMoved "q")).isSome = true := by decide +kernel
  obtain ⟨h', hstep⟩ := Option.isSome_iff_exists.mp hsome
  obtain ⟨hfirst, -⟩ := join_tells_subscribers hr hstep
  have hfacts : ∀ h' ∈ (endOf firstListener).step (joinMoved "q"),
      (h'.store.getPeer "live" "q").isSome = true ∧
        h'.subscriptions.get? 0 = some ⟨"live", "p", false, false⟩ ∧
        ∃ socket ∈ h'.sockets.get? 0, socket.isOpen = true := by decide +kernel
  obtain ⟨hstored, hsub, socket, hsocket, hopen⟩ := hfacts h' hstep
  obtain ⟨stored, hstored⟩ := Option.isSome_iff_exists.mp hstored
  obtain ⟨hrequest, hholds⟩ := hfirst (by decide +kernel) stored hstored
  have hcopy := hholds 0 .immediate socket ⟨_, hsub, by decide, rfl, rfl⟩ hsocket hopen
    fun p hp => Bucket.noConfusion hp
  refine ⟨h', socket, hstep, hsocket, ?_⟩
  rw [hcopy, Option.map_some, hrequest]

/-- Its neighbor leaves after its own peer, and it is not told. -/
def staleViewer : List HubEvent :=
  firstViewer ++ [.leavePeer "live" "p", .leavePeer "live" "q"]

/-- A subscriber whose copy has another address than the stored record. -/
theorem not_propagated {q : PeerId} {sub : Subscription} {socket : Socket}
    (hsub : h.subscriptions.get? s = some sub) (hb : sub.broadcastId = b) (hne : b ≠ "")
    (hget : h.sockets.get? s = some socket) (hopen : socket.isOpen = true) {stored copy : Peer}
    (hstored : h.store.getPeer b q = some stored)
    (hcopy : (socket.directory b).peers.get? q = some copy)
    (hmoved : copy.address ≠ stored.address) : ¬ h.Propagated b q := by
  intro hall
  have hbelongs : h.BelongsIn s b sub.bucket := ⟨sub, hsub, hb ▸ hne, hb, rfl⟩
  exact hmoved (hall s _ socket stored copy hbelongs hget hopen hstored hcopy).1

/-- The client of a peer that joins again from another address, and one that was not told that its
former neighbor left, keep an address that is stored no longer. -/
theorem moved_peer_not_propagated :
    (¬ ∀ (h h' : TrackerWebSocketHub) t b request options,
      system.Reachable (fun _ _ => True) h → h.store.getPeer b request.id ≠ none →
      h.step (.joinPeer t b request options) = some h' → h'.Propagated b request.id) ∧
    ¬ ∀ (h h' : TrackerWebSocketHub) t b request options,
      system.Reachable (fun _ _ => True) h → h.store.getPeer b request.id = none →
      h.step (.joinPeer t b request options) = some h' → h'.Propagated b request.id := by
  constructor
  · intro hall
    have hr := TransitionSystem.reachable_of_run init_start
      (run_endOf (show (system.run start firstListener).isSome = true by decide +kernel))
    have hsome : ((endOf firstListener).step (joinMoved "p")).isSome = true := by decide +kernel
    obtain ⟨h', hstep⟩ := Option.isSome_iff_exists.mp hsome
    have hfacts : ∀ h' ∈ (endOf firstListener).step (joinMoved "p"),
        h'.subscriptions.get? 0 = some ⟨"live", "p", false, false⟩ ∧
          ∃ socket ∈ h'.sockets.get? 0, socket.isOpen = true ∧
            ∃ stored ∈ h'.store.getPeer "live" "p",
              ∃ copy ∈ (socket.directory "live").peers.get? "p",
                copy.address ≠ stored.address := by decide +kernel
    obtain ⟨hsub, socket, hget, hopen, stored, hstored, copy, hcopy, hmoved⟩ := hfacts h' hstep
    exact not_propagated hsub rfl (by decide) hget hopen hstored hcopy hmoved
      (hall _ h' _ _ _ _ hr (by decide +kernel) hstep)
  · intro hall
    have hr := TransitionSystem.reachable_of_run init_start
      (run_endOf (show (system.run start staleViewer).isSome = true by decide +kernel))
    have hsome : ((endOf staleViewer).step (joinMoved "q")).isSome = true := by decide +kernel
    obtain ⟨h', hstep⟩ := Option.isSome_iff_exists.mp hsome
    have hfacts : ∀ h' ∈ (endOf staleViewer).step (joinMoved "q"),
        h'.subscriptions.get? 0 = some ⟨"live", "p", true, true⟩ ∧
          ∃ socket ∈ h'.sockets.get? 0, socket.isOpen = true ∧
            ∃ stored ∈ h'.store.getPeer "live" "q",
              ∃ copy ∈ (socket.directory "live").peers.get? "q",
                copy.address ≠ stored.address := by decide +kernel
    obtain ⟨hsub, socket, hget, hopen, stored, hstored, copy, hcopy, hmoved⟩ := hfacts h' hstep
    exact not_propagated hsub rfl (by decide) hget hopen hstored hcopy hmoved
      (hall _ h' _ _ _ _ hr (by decide +kernel) hstep)

end TrackerWebSocketHub

end OpenStreamGrid
