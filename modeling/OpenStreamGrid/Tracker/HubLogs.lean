import OpenStreamGrid.Tracker.HubInvariant

/-!
# What the handlers send

A step only adds to the logs of sockets, and sockets keep the session they were
opened with. Apart from the flushes, what is added tells of peers the store
holds, of peers that were stored, or repeats the report that was just accepted.
-/

namespace OpenStreamGrid

namespace TrackerWebSocketHub

variable {h h' h'' : TrackerWebSocketHub} {s : SocketId} {b : BroadcastId} {p q : PeerId}
variable {P Q : WsServerMessage → Prop} {out : Outgoing}

/-! ## Growing logs -/

/-- Sockets keep their sessions, and `P` holds of everything that was sent. -/
structure Sends (P : WsServerMessage → Prop) (h h' : TrackerWebSocketHub) : Prop where
  grown : ∀ s socket, h.sockets.get? s = some socket → ∃ socket' sent,
    h'.sockets.get? s = some socket' ∧ socket'.claims = socket.claims ∧
      socket'.sent = socket.sent ++ sent ∧ ∀ m ∈ sent, P m
  connected : ∀ s socket, h'.sockets.get? s = some socket → h.sockets.get? s = none →
    ∀ m ∈ socket.sent, P m

theorem Sends.of_eq (heq : h'.sockets = h.sockets) : Sends P h h' where
  grown s socket hs := ⟨socket, [], heq ▸ hs, rfl, (List.append_nil _).symm, by simp⟩
  connected s socket hs hnone := by
    rw [heq, hnone] at hs
    cases hs

theorem Sends.refl (h : TrackerWebSocketHub) : Sends P h h := .of_eq rfl

theorem Sends.mono (hPQ : ∀ m, P m → Q m) (hh : Sends P h h') : Sends Q h h' where
  grown s socket hs := by
    obtain ⟨socket', sent, hget, hclaims, hsent, hP⟩ := hh.grown s socket hs
    exact ⟨socket', sent, hget, hclaims, hsent, fun m hm => hPQ m (hP m hm)⟩
  connected s socket hs hnone m hm := hPQ m (hh.connected s socket hs hnone m hm)

theorem Sends.trans (hh : Sends P h h') (hh' : Sends P h' h'') : Sends P h h'' where
  grown s socket hs := by
    obtain ⟨socket', sent, hget, hclaims, hsent, hP⟩ := hh.grown s socket hs
    obtain ⟨socket'', sent', hget', hclaims', hsent', hP'⟩ := hh'.grown s socket' hget
    refine ⟨socket'', sent ++ sent', hget', hclaims'.trans hclaims, ?_, fun m hm => ?_⟩
    · rw [hsent', hsent, List.append_assoc]
    · rcases List.mem_append.mp hm with hm | hm
      · exact hP m hm
      · exact hP' m hm
  connected s socket'' hs hnone := by
    cases hget : h'.sockets.get? s with
    | none => exact hh'.connected s socket'' hs hget
    | some socket' =>
        obtain ⟨found, sent', hget', -, hsent', hP'⟩ := hh'.grown s socket' hget
        obtain rfl := Option.some.inj (hs.symm.trans hget')
        intro m hm
        rw [hsent'] at hm
        rcases List.mem_append.mp hm with hm | hm
        · exact hh.connected s socket' hget hnone m hm
        · exact hP' m hm

theorem mem_messagesTo {m : WsServerMessage} : m ∈ messagesTo s out ↔ (s, m) ∈ out := by
  unfold messagesTo
  rw [List.mem_filterMap]
  constructor
  · rintro ⟨⟨t, m'⟩, hmem, hsome⟩
    dsimp only at hsome
    split_ifs at hsome with hs
    obtain rfl := Option.some.inj hsome
    exact hs ▸ hmem
  · exact fun hmem => ⟨(s, m), hmem, if_pos rfl⟩

/-- Everything that is sent is `P`. -/
def All (P : WsServerMessage → Prop) (out : Outgoing) : Prop := ∀ entry ∈ out, P entry.2

theorem All.append {out' : Outgoing} (hout : All P out) (hout' : All P out') :
    All P (out ++ out') := by
  intro entry hmem
  rcases List.mem_append.mp hmem with hmem | hmem
  · exact hout entry hmem
  · exact hout' entry hmem

theorem All.flatMap {α : Type} {f : α → Outgoing} {xs : List α} (hf : ∀ x ∈ xs, All P (f x)) :
    All P (xs.flatMap f) := by
  intro entry hmem
  obtain ⟨x, hx, hmem⟩ := List.mem_flatMap.mp hmem
  exact hf x hx entry hmem

theorem all_nil : All P [] := fun _ hmem => absurd hmem List.not_mem_nil

theorem all_sendToAll {sockets : OrderedSet SocketId} {m : WsServerMessage} (hm : P m) :
    All P (sendToAll sockets m) := by
  intro entry hmem
  obtain ⟨socket, -, rfl⟩ := List.mem_map.mp hmem
  exact hm

theorem all_broadcast {m : WsServerMessage} (hm : P m) : All P (h.broadcast m) := by
  unfold broadcast
  split
  · exact all_nil
  · exact (all_sendToAll hm).append (all_sendToAll hm)

theorem sends_deliver (hout : All P out) (heq : h'.sockets = h.sockets) :
    Sends P h (h'.deliver out) where
  grown s socket hs := by
    rw [get?_sockets_deliver, heq, hs, Option.map_some]
    by_cases hopen : socket.isOpen = true
    · rw [if_pos hopen]
      exact ⟨_, _, rfl, rfl, rfl, fun m hm => hout _ (mem_messagesTo.mp hm)⟩
    · rw [if_neg hopen]
      exact ⟨_, [], rfl, rfl, (List.append_nil _).symm, by simp⟩
  connected s socket hs hnone := by
    rw [get?_sockets_deliver, heq, hnone] at hs
    cases hs

theorem sends_close (h : TrackerWebSocketHub) (s : SocketId) : Sends P h (h.close s) where
  grown x socket hx := by
    by_cases hxs : x = s
    · subst hxs
      refine ⟨{ socket with isOpen := false }, [], ?_, rfl, (List.append_nil _).symm, by simp⟩
      exact (OrderedMap.get?_modify ..).trans (by rw [if_pos rfl, hx, Option.map_some])
    · refine ⟨socket, [], ?_, rfl, (List.append_nil _).symm, by simp⟩
      rw [get?_sockets_close_of_ne hxs, hx]
  connected x socket hx hnone := by
    by_cases hxs : x = s
    · subst hxs
      rw [close, OrderedMap.get?_modify, if_pos rfl, hnone] at hx
      cases hx
    · rw [get?_sockets_close_of_ne hxs, hnone] at hx
      cases hx

/-! ## Membership -/

/-- A message about stored peers, or about one of those that may be `gone`. -/
def TellsOf (h : TrackerWebSocketHub) (gone : BroadcastId → Set PeerId) : WsServerMessage → Prop
  | .peerJoined b peer => h.store.getPeer b peer.id = some peer
  | .peerList b peers => ∀ peer ∈ peers, h.store.getPeer b peer.id = some peer
  | .peerLeft b p => p ∈ gone b
  | .segmentAvailable _ _ _ _ | .segmentInventoryDelta _ _ _ _ | .segmentInventoryBatch _ _ => False

variable {gone gone' : BroadcastId → Set PeerId}

theorem TellsOf.mono (hstore : h'.store = h.store) (hgone : ∀ b q, q ∈ gone b → q ∈ gone' b)
    {m : WsServerMessage} (hm : h.TellsOf gone m) : h'.TellsOf gone' m := by
  cases m with
  | peerJoined b peer =>
      change h'.store.getPeer b peer.id = some peer
      rw [hstore]
      exact hm
  | peerList b peers =>
      intro peer hpeer
      rw [hstore]
      exact hm peer hpeer
  | peerLeft b p => exact hgone b p hm
  | segmentAvailable | segmentInventoryDelta | segmentInventoryBatch => exact hm

/-- The announcement of a fill. -/
theorem all_announceFill (hkeyed : ∀ b q peer, h.store.getPeer b q = some peer → peer.id = q)
    {fill : NeighborViewFill} (hevicted : ∀ e ∈ fill.evicted, e.peerId ∈ gone b) (a : PeerId) :
    All (h.TellsOf gone) (h.announceFill b a fill (h.store.getPeer b)) := by
  have hfound : ∀ q peer, h.store.getPeer b q = some peer →
      h.TellsOf gone (.peerJoined b peer) := by
    intro q peer hpeer
    obtain rfl := hkeyed b q peer hpeer
    exact hpeer
  unfold announceFill
  dsimp only
  refine .append (.append ?_ ?_) (.flatMap fun e he => all_sendToAll (hevicted e he))
  · split_ifs
    · refine .flatMap fun peer hpeer => all_sendToAll ?_
      obtain ⟨q, -, hq⟩ := List.mem_filterMap.mp hpeer
      exact hfound q peer hq
    · exact all_nil
  · split
    · exact all_nil
    · rename_i peer hfilled
      refine .flatMap fun watcher _ => all_sendToAll ?_
      split_ifs at hfilled
      exact hfound a peer hfilled

/-- Whoever is evicted by a fill was a member. -/
theorem mem_members_of_evicted {v : NeighborViews} (hv : v.WellFormed) {a : PeerId}
    {e : Eviction} (he : e ∈ (v.fill b a).2.evicted) : e.peerId ∈ v.members b :=
  (NeighborViews.mem_members_of_mem_viewOf hv ((NeighborViews.fillDiff hv b a).evicted e he).2).2

theorem all_refill (hkeyed : ∀ b q peer, h.store.getPeer b q = some peer → peer.id = q)
    (hq : q ∈ gone b) : ∀ (watchers : List PeerId) {v : NeighborViews}, v.WellFormed →
      (∀ x, x ∈ v.members b → x ∈ gone b) →
      All (h.TellsOf gone) (h.refill b q watchers v).2
  | [], _, _, _ => all_nil
  | watcher :: rest, v, hv, hmembers => by
      have hlater := all_refill hkeyed hq rest (hv.fill b watcher)
        fun x hx => hmembers x ((NeighborViews.mem_members_fill hv).mp hx)
      have hfill : All (h.TellsOf gone) (h.announceFill b watcher (v.fill b watcher).2
          (h.store.getPeer b)) :=
        all_announceFill hkeyed
          (fun e he => hmembers e.peerId (mem_members_of_evicted hv he)) watcher
      exact (All.append (all_sendToAll hq) hfill).append hlater

/-- The members a top-up may evict are stored, or were members before. -/
theorem topUp_evicted (hsound : h.Sound) {views : NeighborViews}
    (hseed : h.seededViews b = some views) {a : PeerId} (ha : a ∈ h.stored b) {e : Eviction}
    (he : e ∈ ((views.add b a).fill b a).2.evicted) :
    e.peerId ∈ h.members b ∨ e.peerId ∈ h.stored b := by
  obtain ⟨hwf, v, hv, -, -, hnew⟩ := seededViews_spec hsound hseed
  have hmem := mem_members_of_evicted (hwf.add b a) he
  rcases (NeighborViews.mem_members_add hwf).mp hmem with hmem | ⟨-, rfl⟩
  · rcases hnew b _ hmem with hmem | ⟨-, hstored⟩
    · exact Or.inl ⟨v, hv, hmem⟩
    · exact Or.inr hstored
  · exact Or.inr ha

theorem sends_peerJoined (hsound : h.Sound) {peer : Peer}
    (hpeer : h.store.getPeer b peer.id = some peer)
    (hgone : ∀ b q, q ∈ h.members b ∨ q ∈ h.stored b → q ∈ gone b) :
    Sends (h.TellsOf gone) h (h.peerJoined b peer) := by
  have hannounced : All (h.TellsOf gone) (h.broadcast (.peerJoined b peer)) :=
    all_broadcast hpeer
  have hlookup : (fun id => if id = peer.id then some peer else h.store.getPeer b id)
      = h.store.getPeer b := by
    funext id
    split_ifs with hid
    · rw [hid, hpeer]
    · rfl
  unfold peerJoined
  dsimp only
  cases hseed : h.seededViews b with
  | none => exact sends_deliver hannounced rfl
  | some views =>
      dsimp only
      rw [hlookup]
      have hfill : All (h.TellsOf gone) (h.announceFill b peer.id
          ((views.add b peer.id).fill b peer.id).2 (h.store.getPeer b)) :=
        all_announceFill hsound.keyed (fun e he => hgone b _
          (topUp_evicted hsound hseed (Option.isSome_iff_exists.mpr ⟨peer, hpeer⟩) he)) peer.id
      exact sends_deliver (hannounced.append hfill) rfl

theorem sends_peerLeft (hsound : h.Sound) (hp : p ∈ gone b)
    (hgone : ∀ q, q ∈ h.members b → q ∈ gone b) :
    Sends (h.TellsOf gone) h (h.peerLeft b p) := by
  set cleared : TrackerWebSocketHub :=
    { h with pendingInventory := h.pendingInventory.modify b (·.delete p) } with hcleared
  have hannounced : All (h.TellsOf gone) (cleared.broadcast (.peerLeft b p)) := all_broadcast hp
  have hsound' : cleared.Sound := hsound.flushing _ _ _ _ _
  unfold peerLeft
  rw [← hcleared]
  dsimp only
  cases hv : cleared.neighborViews with
  | none => exact sends_deliver hannounced rfl
  | some views =>
      dsimp only
      have hwf := hsound.views views hv
      have hmembers : ∀ x, x ∈ (views.leave b p).1.members b → x ∈ gone b := fun x hx =>
        hgone x ⟨views, hv, ((NeighborViews.mem_members_leave hwf).mp hx).1⟩
      have hrefill : All (cleared.TellsOf gone)
          (cleared.refill b p (views.leave b p).2 (views.leave b p).1).2 :=
        all_refill hsound'.keyed hp _ (hwf.leave b p) hmembers
      exact sends_deliver (hannounced.append hrefill) rfl

theorem sends_peersLeft : ∀ (removed : List StalePeer) {h : TrackerWebSocketHub}, h.Sound →
    (∀ x ∈ removed, x.peerId ∉ h.stored x.broadcastId ∧ x.peerId ∈ gone x.broadcastId) →
    (∀ b q, q ∈ h.members b → q ∈ gone b) → Sends (h.TellsOf gone) h (h.peersLeft removed)
  | [], h, _, _, _ => .refl h
  | x :: rest, h, hsound, hremoved, hmembers => by
      obtain ⟨⟨habsent, hx⟩, hrest⟩ := List.forall_mem_cons.mp hremoved
      have hfirst := sends_peerLeft hsound hx (hmembers x.broadcastId)
      obtain ⟨h₁, out, heq, hh, -, hmembers₁⟩ := peerLeft_spec hsound habsent
      have hstore : (h.peerLeft x.broadcastId x.peerId).store = h.store :=
        (h.peerLeft_untouched ..).store
      have hsound₁ : (h.peerLeft x.broadcastId x.peerId).Sound := heq ▸ hsound.handled hh
      have hlater := sends_peersLeft rest hsound₁ (fun y hy => ?_) fun b q hq => ?_
      · refine hfirst.trans (hlater.mono fun m => ?_)
        exact TellsOf.mono hstore.symm fun _ _ => id
      · refine ⟨fun hmem => (hrest y hy).1 ?_, (hrest y hy).2⟩
        rwa [mem_stored_iff, hstore] at hmem
      · rw [heq] at hq
        exact hmembers b q ((hmembers₁ b q).mp hq).1

/-! ## Subscriptions and reports -/

theorem sends_setSubscription (h : TrackerWebSocketHub) (s : SocketId) (sub : Subscription) :
    Sends P h (h.setSubscription s sub) := by
  obtain ⟨index, created, heq⟩ := h.setSubscription_eq s sub
  rw [heq]
  exact .of_eq rfl

theorem sends_removeSocket (h : TrackerWebSocketHub) (s : SocketId) :
    Sends P h (h.removeSocket s) := by
  obtain ⟨index, heq⟩ := h.removeSocket_eq s
  rw [heq]
  exact (sends_close h s).trans (.of_eq rfl)

theorem sends_broadcastRemoved (h : TrackerWebSocketHub) (b : BroadcastId) :
    Sends P h (h.broadcastRemoved b) := by
  have hdrop : ∀ (dropped : List SocketId) (h : TrackerWebSocketHub),
      Sends P h (dropped.foldl dropSubscriber h) := by
    intro dropped
    induction dropped with
    | nil => exact .refl
    | cons s rest ih =>
        intro h
        obtain ⟨index, heq⟩ := h.dropSubscriber_eq s
        have hfirst : Sends P h (h.dropSubscriber s) := by
          rw [heq]
          exact (sends_close h s).trans (.of_eq rfl)
        exact hfirst.trans (ih _)
  have hcleared : Sends P h
      { h with
        timers := if b ∈ h.pendingInventory then h.timers.erase b else h.timers
        pendingInventory := h.pendingInventory.delete b
        neighborViews := h.neighborViews.map fun v : NeighborViews => v.removeBroadcast b } :=
    .of_eq rfl
  exact hcleared.trans (hdrop _ _)

theorem sends_publishInventory {m : InventoryMessage} (hm : P m.toServerMessage) :
    Sends P h (h.publishInventory m) := by
  unfold publishInventory
  split
  · exact .refl h
  · dsimp only
    split_ifs
    · exact (sends_deliver (all_sendToAll hm) rfl).trans (.of_eq rfl)
    · exact sends_deliver (all_sendToAll hm) rfl

/-- **What an accepted subscription does**: the view may be topped up, and the
socket gets a peer list of stored records. -/
theorem handleSubscribe_ok (gone : BroadcastId → Set PeerId) (hsound : h.Sound)
    {features : Option (List String)}
    (hgone : ∀ b q, q ∈ h.members b ∨ q ∈ h.stored b → q ∈ gone b)
    (hok : h.handleSubscribe s b p features = .ok h') :
    (∃ socket, h.sockets.get? s = some socket ∧ socket.claims = ⟨b, p⟩) ∧
      ∃ views out batch view peers, All (h.TellsOf gone) out ∧
        (∀ peer ∈ peers, h.store.getPeer b peer.id = some peer) ∧
        h' = ((({ h with neighborViews := views } : TrackerWebSocketHub).deliver
          out).setSubscription s ⟨b, p, batch, view⟩).deliver [(s, .peerList b peers)] := by
  unfold handleSubscribe at hok
  dsimp only at hok
  split_ifs at hok with hclaims hfeatures hview
  all_goals
    rw [not_or, not_not, Bool.not_eq_false] at hclaims
    refine ⟨Option.map_eq_some_iff.mp hclaims.1, ?_⟩
  · cases hseed : h.seededViews b with
    | none =>
        rw [seededViews, Option.map_eq_none_iff] at hseed
        rw [hseed] at hview
        simp at hview
    | some views =>
        rw [hseed] at hok
        obtain rfl := Except.ok.inj hok
        have hfill : All (h.TellsOf gone) (h.announceFill b p ((views.add b p).fill b p).2
            (h.store.getPeer b)) :=
          all_announceFill hsound.keyed
            (fun e he => hgone b _ (topUp_evicted hsound hseed hclaims.2 he)) p
        refine ⟨_, _, _, _, _, hfill, fun peer hpeer => ?_, rfl⟩
        obtain ⟨q, -, hq⟩ := List.mem_filterMap.mp hpeer
        obtain rfl := hsound.keyed b q peer hq
        exact hq
  · cases hlist : h.store.listPeers b none with
    | error _ =>
        rw [hlist] at hok
        cases hok
    | ok peers =>
        rw [hlist] at hok
        obtain rfl := Except.ok.inj hok
        refine ⟨h.neighborViews, [], _, _, peers, all_nil, fun peer hpeer => ?_, rfl⟩
        obtain ⟨q, hq⟩ := (mem_listPeers hlist).mp hpeer
        obtain rfl := hsound.keyed b q peer hq
        exact hq

theorem sends_handleSubscribe (gone : BroadcastId → Set PeerId) (hsound : h.Sound)
    {features : Option (List String)}
    (hgone : ∀ b q, q ∈ h.members b ∨ q ∈ h.stored b → q ∈ gone b)
    (hok : h.handleSubscribe s b p features = .ok h') : Sends (h.TellsOf gone) h h' := by
  obtain ⟨-, views, out, batch, view, peers, hout, hpeers, rfl⟩ :=
    handleSubscribe_ok gone hsound hgone hok
  have hlist : All (h.TellsOf gone) [(s, .peerList b peers)] := by
    intro entry hmem
    obtain rfl := List.mem_singleton.mp hmem
    exact hpeers
  have hfilled : Sends (h.TellsOf gone) h
      (({ h with neighborViews := views } : TrackerWebSocketHub).deliver out) :=
    sends_deliver hout rfl
  exact hfilled.trans ((sends_setSubscription _ s _).trans (sends_deliver hlist rfl))

/-! ## What a step sends -/

/-- The messages an event other than a flush may lead to: about the stored
peers, about those stored before, or the report the event carries. -/
inductive Tells (h h' : TrackerWebSocketHub) : HubEvent → WsServerMessage → Prop where
  | membership (e : HubEvent) {m : WsServerMessage}
      (hm : h'.TellsOf (fun b => {q | q ∈ h.stored b ∨ q ∈ h'.stored b}) m) : Tells h h' e m
  | report {s : SocketId} {admitted : Bool} {t : Timestamp} {b : BroadcastId} {q : PeerId}
      {message : ReportSegmentsMessage} {m : InventoryMessage} (hb : m.broadcastId = b)
      (hq : m.peerId = q) (heffect : m.effect = message.effect) :
      Tells h h' (.received s admitted t (.reportSegments b q message)) m.toServerMessage

theorem Sends.withStore {store : TrackerStore} (hh : Sends P { h with store := store } h') :
    Sends P h h' :=
  ⟨hh.grown, hh.connected⟩

/-- The store changes first, and the handler tells of it. -/
theorem Sends.after {store : TrackerStore} {e : HubEvent} (gone : BroadcastId → Set PeerId)
    (hh : Sends (TellsOf { h with store := store } gone) { h with store := store } h')
    (hstore : h'.store = store)
    (hgone : ∀ b q, q ∈ gone b → q ∈ h.stored b ∨ q ∈ h'.stored b) :
    Sends (Tells h h' e) h h' :=
  hh.withStore.mono fun _ hm => .membership e (TellsOf.mono hstore hgone hm)

theorem sends_handleReport {admitted : Bool} {t : Timestamp} {message : ReportSegmentsMessage}
    (hok : h.handleReport s admitted t b p message = .ok h') :
    Sends (Tells h h' (.received s admitted t (.reportSegments b p message))) h h' := by
  rcases handleReport_ok hok with rfl | ⟨old, m, store, -, hb, hq, heffect, -, rfl⟩
  · exact .of_eq rfl
  · exact .withStore (sends_publishInventory (Tells.report hb hq heffect))

/-- **Every step only adds to the logs**, and what it adds is explained by its
event, unless it runs a flush. -/
theorem Handles.sends (hsteady : h.Steady) {e : HubEvent} (hh : Handles h e h') :
    Sends (Tells h h' e) h h' := by
  cases hh with
  | stored => exact .of_eq rfl
  | @joined t b request options store peer hjoin =>
      obtain ⟨hget, hid, -, -⟩ := getPeer_joined hjoin
      have hpeer : store.getPeer b peer.id = some peer := by
        rw [hget, if_pos ⟨rfl, hid⟩]
      have hstore := (peerJoined_untouched { h with store := store } b peer).store
      refine Sends.after
        (fun b => {q | q ∈ h.members b ∨
          q ∈ TrackerWebSocketHub.stored { h with store := store } b})
        (sends_peerJoined (hsteady.withPeer hid hget) hpeer fun _ _ => id) hstore
        fun b' q hq => ?_
      rcases hq with hq | hq
      · exact Or.inl (hsteady.registered b' q hq)
      · right
        rw [mem_stored_iff, hstore]
        exact hq
  | @left _ removed hremoved =>
      have hstore := getPeer_retirePeers h.store removed
      refine Sends.after h.stored (sends_peersLeft removed (hsteady.forget hstore)
        (fun x hx => ⟨not_stored_of_removed hstore x hx, hremoved x hx⟩) hsteady.registered)
        (peersLeft_untouched removed _).store fun _ _ => Or.inl
  | removed => exact .withStore (sends_broadcastRemoved _ _)
  | @connected s claims hfresh =>
      refine ⟨fun x socket hx => ?_, fun x socket hx hnone => ?_⟩
      · have hne : x ≠ s := by
          rintro rfl
          exact hfresh (OrderedMap.mem_of_get? hx)
        refine ⟨socket, [], ?_, rfl, (List.append_nil _).symm, by simp⟩
        exact (OrderedMap.get?_set ..).trans ((if_neg hne).trans hx)
      · have hget := (OrderedMap.get?_set ..).symm.trans hx
        split_ifs at hget
        · obtain rfl := Option.some.inj hget
          simp
        · exact absurd (hnone.symm.trans hget) (by simp)
  | closing _ s => exact sends_close h s
  | closed s => exact sends_removeSocket h s
  | subscribed _ _ hok =>
      have hsends := sends_handleSubscribe h.stored hsteady.toSound
        (fun b q hq => hq.elim (hsteady.registered b q) id) hok
      obtain ⟨-, views, out, batch, view, peers, -, -, rfl⟩ :=
        handleSubscribe_ok (fun _ => Set.univ) hsteady.toSound (fun _ _ _ => trivial) hok
      refine hsends.mono fun m hm => .membership _ (TellsOf.mono ?_ (fun _ _ => Or.inl) hm)
      exact (subscribed_untouched
        ({ h with neighborViews := views } : TrackerWebSocketHub) ..).store
  | reported hok => exact sends_handleReport hok

/-! ## Who is subscribed -/

/-- The socket whose subscription the event brings, if it is accepted. -/
def subscriber (h : TrackerWebSocketHub) : HubEvent → Option SocketId
  | .received s admitted t (.subscribe b p features) =>
      if (h.handleMessage s admitted t (.subscribe b p features)).isOk then some s else none
  | _ => none

/-- What may happen to the subscription of a socket `x`: it is kept, lost, or
the event is an accepted subscription to the broadcast of its session. -/
def Resubscribes (h h' : TrackerWebSocketHub) (e : HubEvent) (x : SocketId) : Prop :=
  h'.subscriptions.get? x = h.subscriptions.get? x ∨
    (∀ sub, h'.subscriptions.get? x = some sub → sub = EMPTY_SUBSCRIPTION) ∨
      h.subscriber e = some x ∧ ∃ sub socket, h'.subscriptions.get? x = some sub ∧
        h.sockets.get? x = some socket ∧ socket.claims = ⟨sub.broadcastId, sub.peerId⟩

theorem broadcastRemoved_subscriptions (h : TrackerWebSocketHub) (b : BroadcastId) (x : SocketId) :
    (h.broadcastRemoved b).subscriptions.get? x = h.subscriptions.get? x ∨
      (h.broadcastRemoved b).subscriptions.get? x = some EMPTY_SUBSCRIPTION := by
  have hdrop : ∀ (dropped : List SocketId) (h : TrackerWebSocketHub),
      (dropped.foldl dropSubscriber h).subscriptions.get? x = h.subscriptions.get? x ∨
        (dropped.foldl dropSubscriber h).subscriptions.get? x = some EMPTY_SUBSCRIPTION := by
    intro dropped
    induction dropped with
    | nil => exact fun _ => Or.inl rfl
    | cons s rest ih =>
        intro h
        obtain ⟨index, heq⟩ := h.dropSubscriber_eq s
        rcases ih (h.dropSubscriber s) with hkept | hlost
        · rw [List.foldl_cons, hkept, heq]
          dsimp only
          rw [OrderedMap.get?_set]
          split_ifs
          · exact Or.inr rfl
          · exact Or.inl rfl
        · exact Or.inr hlost
  exact hdrop _ _

theorem subscriptions_peersLeft : ∀ (removed : List StalePeer) (h : TrackerWebSocketHub),
    (h.peersLeft removed).subscriptions = h.subscriptions
  | [], _ => rfl
  | x :: rest, h => by
      refine (subscriptions_peersLeft rest (h.peerLeft x.broadcastId x.peerId)).trans ?_
      unfold peerLeft
      dsimp only
      split <;> rfl

theorem subscriptions_publishInventory (h : TrackerWebSocketHub) (m : InventoryMessage) :
    (h.publishInventory m).subscriptions = h.subscriptions := by
  unfold publishInventory queueInventory
  split
  · rfl
  · dsimp only
    split_ifs <;> rfl

theorem handleReport_subscriptions {admitted : Bool} {t : Timestamp}
    {message : ReportSegmentsMessage} (hok : h.handleReport s admitted t b p message = .ok h') :
    h'.subscriptions = h.subscriptions := by
  unfold handleReport at hok
  dsimp only at hok
  split_ifs at hok
  split at hok
  · cases hok
  · obtain rfl := Except.ok.inj hok
    rfl
  · obtain rfl := Except.ok.inj hok
    rw [subscriptions_publishInventory]

/-- **Only an accepted subscription subscribes a socket.** -/
theorem Handles.resubscribes (hsound : h.Sound) {e : HubEvent} (hh : Handles h e h')
    (x : SocketId) : Resubscribes h h' e x := by
  have hkept : h'.subscriptions = h.subscriptions → Resubscribes h h' e x :=
    fun heq => Or.inl (by rw [heq])
  cases hh with
  | stored => exact hkept rfl
  | joined =>
      refine hkept ?_
      unfold peerJoined
      dsimp only
      split <;> rfl
  | left => exact hkept (subscriptions_peersLeft _ _)
  | @removed b store =>
      rcases broadcastRemoved_subscriptions { h with store := store } b x with hkept | hlost
      · exact Or.inl hkept
      · exact Or.inr (Or.inl fun sub hsub => Option.some.inj (hsub.symm.trans hlost))
  | connected =>
      unfold Resubscribes
      dsimp only
      rw [OrderedMap.get?_set]
      split_ifs
      · exact Or.inr (Or.inl fun sub hsub => (Option.some.inj hsub).symm)
      · exact Or.inl rfl
  | closing => exact hkept rfl
  | closed s =>
      obtain ⟨index, heq⟩ := h.removeSocket_eq s
      unfold Resubscribes
      rw [heq]
      dsimp only
      rw [OrderedMap.get?_delete]
      split_ifs
      · exact Or.inr (Or.inl fun sub hsub => by cases hsub)
      · exact Or.inl rfl
  | @subscribed s admitted t b p features _ _ hmessage hok =>
      obtain ⟨⟨socket, hsocket, hclaims⟩, views, out, batch, view, peers, -, -, heq⟩ :=
        handleSubscribe_ok (fun _ => Set.univ) hsound (fun _ _ _ => trivial) hok
      have hget : h'.subscriptions.get? x
          = if x = s then some ⟨b, p, batch, view⟩ else h.subscriptions.get? x := by
        obtain ⟨index, created, hset⟩ := setSubscription_eq
          (({ h with neighborViews := views } : TrackerWebSocketHub).deliver out) s
          ⟨b, p, batch, view⟩
        rw [heq, hset]
        exact OrderedMap.get?_set ..
      by_cases hx : x = s
      · subst hx
        rw [if_pos rfl] at hget
        refine Or.inr (Or.inr ⟨?_, _, socket, hget, hsocket, hclaims⟩)
        rw [subscriber, hmessage]
        rfl
      · rw [if_neg hx] at hget
        exact Or.inl hget
  | reported hok => exact hkept (handleReport_subscriptions hok)

end TrackerWebSocketHub

end OpenStreamGrid
