import OpenStreamGrid.Client.ViewTracking
import OpenStreamGrid.Tracker.HubIndex
import OpenStreamGrid.Tracker.NeighborEffects

/-!
# Neighbor-view clients follow their views

Views change on both ends of every link, and each change must reach the right
sockets. For one neighbor-view socket, what a handler sends it carries its
directory from the view before to the view after; `Following` collects this for
all sockets, whatever the later modules ask of the copies.
-/

namespace OpenStreamGrid

namespace TrackerWebSocketHub

variable {h h' : TrackerWebSocketHub} {s : SocketId} {b : BroadcastId} {p : PeerId}

/-! ## What a fill tells one socket -/

/-- A socket of another broadcast hears nothing of a fill. -/
theorem messagesTo_announceFill_of_ne (hi : h.Indexed) (hs : s ∈ h.viewerSockets b p)
    {b' : BroadcastId} (hb : b' ≠ b) (a : PeerId) (fill : NeighborViewFill)
    (lookup : PeerId → Option Peer) : messagesTo s (h.announceFill b' a fill lookup) = [] := by
  have hnone : ∀ q m, messagesTo s (h.sendToViewer b' q m) = [] := by
    intro q m
    rw [messagesTo_sendToViewer hi hs, if_neg fun hbq => hb hbq.1]
  unfold announceFill
  simp only [messagesTo_append, messagesTo_flatMap, hnone]
  split_ifs <;> cases lookup a <;> simp [messagesTo_flatMap, hnone]

/-- One copy of the new neighbor for each time the socket's owner took it in. -/
theorem messagesTo_reciprocal (hi : h.Indexed) (hs : s ∈ h.viewerSockets b p)
    (found : Option Peer) (watchers : List PeerId) :
    messagesTo s (match found with
      | none => []
      | some peer => watchers.flatMap fun w => h.sendToViewer b w (.peerJoined b peer))
    = (found.toList.flatMap fun peer =>
        (watchers.filter fun w => decide (w = p)).map fun _ => peer).map (.peerJoined b) := by
  cases found with
  | none => rfl
  | some peer =>
      dsimp only
      rw [messagesTo_flatMap]
      simp only [messagesTo_sendToViewer hi hs, true_and, Option.toList_some,
        List.flatMap_singleton, List.map_map]
      induction watchers with
      | nil => rfl
      | cons w rest ih =>
          rw [List.flatMap_cons, ih]
          by_cases hw : w = p
          · simp [hw]
          · simp [hw]

/-- A fill of `a` tells a socket of `p` the links of `p` that it changed. -/
theorem exists_links_announceFill (hi : h.Indexed) (hs : s ∈ h.viewerSockets b p) (a : PeerId)
    (fill : NeighborViewFill) (lookup : PeerId → Option Peer) :
    ∃ (joined : List Peer) (left : List PeerId), messagesTo s (h.announceFill b a fill lookup)
        = joined.map (.peerJoined b) ++ left.map (.peerLeft b) ∧
      (∀ peer, peer ∈ joined ↔ a = p ∧ (∃ c ∈ fill.added, lookup c = some peer) ∨
        p ∈ fill.reciprocal ∧ lookup a = some peer) ∧
      ∀ x, x ∈ left ↔ ⟨p, x⟩ ∈ fill.evicted := by
  have hsend : ∀ q m, messagesTo s (h.sendToViewer b q m) = if q = p then [m] else [] := by
    intro q m
    rw [messagesTo_sendToViewer hi hs]
    simp
  have hviewer := hasViewer_of_mem hs
  set watchers := fill.reciprocal.filter fun watcher => h.hasViewer b watcher with hwatchers
  have hwatching : p ∈ watchers ↔ p ∈ fill.reciprocal := by
    rw [hwatchers, List.mem_filter]
    exact and_iff_left hviewer
  set filled := if watchers.length > 0 then lookup a else none with hfilled
  refine ⟨(if a = p then fill.added.filterMap lookup else []) ++
      filled.toList.flatMap fun peer => (watchers.filter fun w => decide (w = p)).map fun _ => peer,
    (fill.evicted.filter fun e => decide (e.watcher = p)).map Eviction.peerId, ?_, ?_, ?_⟩
  · have hadded : messagesTo s (if h.hasViewer b a then (fill.added.filterMap lookup).flatMap
          fun peer => h.sendToViewer b a (.peerJoined b peer) else [])
        = (if a = p then fill.added.filterMap lookup else []).map (.peerJoined b) := by
      by_cases ha : a = p
      · subst ha
        rw [if_pos hviewer, if_pos rfl, messagesTo_flatMap]
        simp only [hsend, if_true]
        exact List.map_eq_flatMap.symm
      · rw [if_neg ha]
        split_ifs
        · rw [messagesTo_flatMap]
          simp [hsend, ha]
        · rfl
    have hevicted : messagesTo s (fill.evicted.flatMap fun e =>
          h.sendToViewer b e.watcher (.peerLeft b e.peerId))
        = ((fill.evicted.filter fun e => decide (e.watcher = p)).map Eviction.peerId).map
            (.peerLeft b) := by
      rw [messagesTo_flatMap]
      simp only [hsend]
      induction fill.evicted with
      | nil => rfl
      | cons e rest ih =>
          rw [List.flatMap_cons, ih]
          by_cases he : e.watcher = p
          · simp [he]
          · simp [he]
    unfold announceFill
    dsimp only
    rw [messagesTo_append, messagesTo_append, hadded, List.map_append]
    exact congrArg₂ _ (congrArg₂ _ rfl (messagesTo_reciprocal hi hs _ _)) hevicted
  · intro peer
    rw [List.mem_append]
    refine or_congr ?_ ?_
    · split_ifs with ha
      · simp [ha]
      · simp [ha]
    · simp only [List.mem_flatMap, Option.mem_toList, List.mem_map, List.mem_filter,
        decide_eq_true_eq, exists_and_right]
      constructor
      · rintro ⟨peer', hsome, ⟨w, hw, rfl⟩, rfl⟩
        rw [hfilled] at hsome
        split_ifs at hsome
        exact ⟨hwatching.mp hw, hsome⟩
      · rintro ⟨hp, hsome⟩
        have hmem := hwatching.mpr hp
        refine ⟨peer, ?_, ⟨p, hmem, rfl⟩, rfl⟩
        rw [hfilled, if_pos (List.length_pos_of_mem hmem)]
        exact hsome
  · intro x
    simp only [List.mem_map, List.mem_filter, decide_eq_true_eq]
    constructor
    · rintro ⟨⟨w, y⟩, ⟨hmem, rfl⟩, rfl⟩
      exact hmem
    · exact fun hmem => ⟨⟨p, x⟩, ⟨hmem, rfl⟩, rfl⟩

/-! ## Following the views -/

/-- The peers of a broadcast that are stored. -/
def stored (h : TrackerWebSocketHub) (b : BroadcastId) : Set PeerId :=
  {q | (h.store.getPeer b q).isSome}

/-- What the view of a peer shows. -/
def shown (h : TrackerWebSocketHub) (b : BroadcastId) (p : PeerId) : Set PeerId :=
  {q | ∃ v, h.neighborViews = some v ∧ q ∈ v.viewOf b p}

/-- The members of a broadcast's views. -/
def members (h : TrackerWebSocketHub) (b : BroadcastId) : Set PeerId :=
  {q | ∃ v, h.neighborViews = some v ∧ q ∈ v.members b}

theorem shown_of_eq {v : NeighborViews} (hv : h.neighborViews = some v) :
    h.shown b p = {q | q ∈ v.viewOf b p} := by
  ext q
  constructor
  · rintro ⟨v', hv', hq⟩
    exact Option.some.inj (hv.symm.trans hv') ▸ hq
  · exact fun hq => ⟨v, hv, hq⟩

theorem members_of_eq {v : NeighborViews} (hv : h.neighborViews = some v) :
    h.members b = {q | q ∈ v.members b} := by
  ext q
  constructor
  · rintro ⟨v', hv', hq⟩
    exact Option.some.inj (hv.symm.trans hv') ▸ hq
  · exact fun hq => ⟨v, hv, hq⟩

/-- The directory of every open neighbor-view socket follows the view of its
peer; each copy is `good` and, where `exact`, nobody else is known. -/
def Following (h : TrackerWebSocketHub)
    (good : BroadcastId → PeerId → PeerId → Set SegmentId → Prop)
    (exact : BroadcastId → PeerId → Prop) : Prop :=
  ∀ s b p socket, s ∈ h.viewerSockets b p → h.sockets.get? s = some socket →
    socket.isOpen = true →
      Follows (good b p) (h.stored b) p (exact b p) (h.shown b p) (socket.directory b)

/-- The invariant every handler relies on and restores. -/
structure Sound (h : TrackerWebSocketHub) : Prop where
  indexed : h.Indexed
  views : ∀ v, h.neighborViews = some v → v.WellFormed
  keyed : ∀ b q peer, h.store.getPeer b q = some peer → peer.id = q
  viewing : ∀ s b p, s ∈ h.viewerSockets b p → h.neighborViews.isSome

/-- What is sent carries every neighbor-view socket from the views of `h` to
those of `h'`, in whatever sense the stored records are good copies. -/
def Relays (h h' : TrackerWebSocketHub) (out : Outgoing) : Prop :=
  ∀ s b p, s ∈ h.viewerSockets b p → ∀ good : PeerId → Set SegmentId → Prop,
    (∀ q peer, h.store.getPeer b q = some peer → good q {x | x ∈ peer.segments}) →
      Carries good (h.stored b) b p (h.shown b p) (h'.shown b p) (messagesTo s out)

/-- What a handler that sends `out` and changes views leaves alone. -/
structure Handled (h h' : TrackerWebSocketHub) (out : Outgoing) : Prop where
  store : h'.store = h.store
  sockets : h'.sockets = h.sockets
  subscriptions : h'.subscriptions = h.subscriptions
  index : h'.subscribersByBroadcast = h.subscribersByBroadcast
  created : h'.subscribersCreated = h.subscribersCreated
  immediates : h'.immediates = h.immediates
  flushing : h'.flushing = h.flushing
  views : ∀ v, h'.neighborViews = some v → v.WellFormed
  viewing : h'.neighborViews.isSome = h.neighborViews.isSome
  relays : Relays h h' out

variable {out : Outgoing}

theorem Handled.viewerSockets (hh : Handled h h' out) (b : BroadcastId) (p : PeerId) :
    (h'.deliver out).viewerSockets b p = h.viewerSockets b p := by
  change h'.viewerSockets b p = _
  unfold TrackerWebSocketHub.viewerSockets
  rw [hh.index]

theorem Sound.handled (hsound : h.Sound) (hh : Handled h h' out) : (h'.deliver out).Sound where
  indexed := by
    refine hsound.indexed.congr hh.subscriptions hh.index hh.created fun s hs => ?_
    rw [mem_sockets_deliver, hh.sockets]
    exact hs
  views := hh.views
  keyed := by
    change ∀ b q peer, h'.store.getPeer b q = some peer → peer.id = q
    rw [hh.store]
    exact hsound.keyed
  viewing s b p hs := by
    rw [hh.viewerSockets] at hs
    exact hh.viewing.trans (hsound.viewing s b p hs)

/-- **A handler keeps everyone following.** -/
theorem Following.handled {good : BroadcastId → PeerId → PeerId → Set SegmentId → Prop}
    {exact : BroadcastId → PeerId → Prop} (hf : h.Following good exact) (hh : Handled h h' out)
    (hexact : ∀ b p, exact b p → p ∈ h.stored b)
    (hgood : ∀ b p q peer, h.store.getPeer b q = some peer → good b p q {x | x ∈ peer.segments}) :
    (h'.deliver out).Following good exact := by
  intro s b p socket hs hsocket hopen
  rw [hh.viewerSockets] at hs
  rw [get?_sockets_deliver, hh.sockets] at hsocket
  obtain ⟨socket', hget, rfl⟩ := Option.map_eq_some_iff.mp hsocket
  have hopen' : socket'.isOpen = true := by
    by_contra hclosed
    rw [if_neg hclosed] at hopen
    exact hclosed hopen
  have hcarried := hh.relays s b p hs (good b p) (hgood b p) (exact b p) (socket'.directory b)
    (PeerDirectory.handleMessages_broadcastId ..) (hexact b p) (hf s b p socket' hs hget hopen')
  have hstored : (h'.deliver out).stored b = h.stored b := by
    change {q | (h'.store.getPeer b q).isSome = true} = _
    rw [hh.store]
    rfl
  rw [if_pos hopen', Socket.directory, PeerDirectory.handleMessages_append, hstored]
  exact hcarried

/-! ## Fills and refills -/

section Carrying

variable {good : PeerId → Set SegmentId → Prop} {v : NeighborViews}

/-- Fills on another broadcast are none of a socket's business. -/
theorem viewOf_fill_of_ne (v : NeighborViews) {b' : BroadcastId} (hb : b' ≠ b) (a : PeerId) :
    (v.fill b' a).1.viewOf b p = v.viewOf b p := by
  unfold NeighborViews.viewOf
  rw [v.broadcastViews_fill_of_ne (Ne.symm hb)]

/-- Announcing a fill carries a socket along, also while peers in `extra` have
left the views but not yet the directory. -/
theorem carries_announceFill (hsound : h.Sound) (hs : s ∈ h.viewerSockets b p)
    (hv : v.WellFormed)
    (hgood : ∀ q peer, h.store.getPeer b q = some peer → good q {x | x ∈ peer.segments})
    (a : PeerId) (extra : Set PeerId) (hextra : ∀ x ∈ extra, x ∉ v.viewOf b p) :
    Carries good (h.stored b) b p ({x | x ∈ v.viewOf b p} ∪ extra)
      ({x | x ∈ (v.fill b a).1.viewOf b p} ∪ extra)
      (messagesTo s (h.announceFill b a (v.fill b a).2 (h.store.getPeer b))) := by
  obtain ⟨joined, left, heq, hjoined, hleft⟩ := exists_links_announceFill hsound.indexed hs a
    (v.fill b a).2 (h.store.getPeer b)
  have hdiff := NeighborViews.fillDiff hv b a
  have hdropped : ∀ x ∈ left, x ∈ v.viewOf b p := fun x hx =>
    (hdiff.evicted _ ((hleft x).mp hx)).2
  rw [heq]
  refine carries_links
    {x | a = p ∧ x ∈ (v.fill b a).2.added ∨ x = a ∧ p ∈ (v.fill b a).2.reciprocal} _ _
    (fun x => ?_) (fun x hx => ?_) (fun hx => ?_) (fun peer hpeer => ?_) (fun q hq hqs => ?_)
  · have hsees := hdiff.sees p x
    have hold : x ∈ extra → x ∉ left := fun hx hmem => hextra x hx (hdropped x hmem)
    simp only [Set.mem_union, Set.mem_ofPred_eq, NeighborViews.viewOf, hsees, hleft]
    rw [hleft] at hold
    constructor
    · rintro ((⟨hx, hkept⟩ | ⟨hp, hx⟩ | hx) | hx)
      · exact Or.inl ⟨Or.inl hx, hkept⟩
      · exact Or.inr (Or.inl ⟨hp.symm, hx⟩)
      · exact Or.inr (Or.inr hx)
      · exact Or.inl ⟨Or.inr hx, hold hx⟩
    · rintro (⟨hx | hx, hkept⟩ | ⟨hp, hx⟩ | hx)
      · exact Or.inl (Or.inl ⟨hx, hkept⟩)
      · exact Or.inr hx
      · exact Or.inl (Or.inr (Or.inl ⟨hp.symm, hx⟩))
      · exact Or.inl (Or.inr (Or.inr hx))
  · rintro (⟨rfl, hadded⟩ | ⟨rfl, hreciprocal⟩)
    · exact (hdiff.added x hadded).2.2 (hdropped x hx)
    · exact (hdiff.reciprocal p hreciprocal).2 (hdropped x hx)
  · exact NeighborViews.not_mem_viewOf_self hv b p (hdropped p hx)
  · rcases (hjoined peer).mp hpeer with ⟨rfl, c, hc, hfound⟩ | ⟨hreciprocal, hfound⟩
    · obtain rfl := hsound.keyed b c peer hfound
      exact ⟨Or.inl ⟨rfl, hc⟩, hgood _ _ hfound⟩
    · obtain rfl := hsound.keyed b a peer hfound
      exact ⟨Or.inr ⟨rfl, hreciprocal⟩, hgood _ _ hfound⟩
  · obtain ⟨peer, hfound⟩ := Option.isSome_iff_exists.mp hqs
    refine ⟨peer, (hjoined peer).mpr ?_, hsound.keyed b q peer hfound⟩
    rcases hq with ⟨hp, hadded⟩ | ⟨rfl, hreciprocal⟩
    · exact Or.inl ⟨hp, q, hadded, hfound⟩
    · exact Or.inr ⟨hreciprocal, hfound⟩

/-- The refills that follow a leave, watcher by watcher: `q` has left the views,
and the directories of the watchers still to come. -/
theorem carries_refill (hsound : h.Sound) (hs : s ∈ h.viewerSockets b p)
    (hgood : ∀ q peer, h.store.getPeer b q = some peer → good q {x | x ∈ peer.segments})
    (q : PeerId) : ∀ (watchers : List PeerId) {v : NeighborViews}, v.WellFormed →
      watchers.Nodup → q ∉ watchers → q ∉ v.members b →
      Carries good (h.stored b) b p ({x | x ∈ v.viewOf b p} ∪ {x | x = q ∧ p ∈ watchers})
        {x | x ∈ (h.refill b q watchers v).1.viewOf b p}
        (messagesTo s (h.refill b q watchers v).2)
  | [], v, _, _, _, _ => by
      have hnone : {x | x ∈ v.viewOf b p} ∪ {x | x = q ∧ p ∈ ([] : List PeerId)}
          = {x | x ∈ v.viewOf b p} := by
        ext x
        simp
      rw [hnone]
      exact Carries.refl _
  | watcher :: rest, v, hv, hnd, hq, hmem => by
      obtain ⟨hwatcher, hrest⟩ := List.nodup_cons.mp hnd
      obtain ⟨hne, hqrest⟩ := not_or.mp (mt List.mem_cons.mpr hq)
      have hunseen : q ∉ v.viewOf b p := fun hx =>
        hmem (NeighborViews.mem_members_of_mem_viewOf hv hx).2
      have hgone : Carries good (h.stored b) b p
          ({x | x ∈ v.viewOf b p} ∪ {x | x = q ∧ p ∈ watcher :: rest})
          ({x | x ∈ v.viewOf b p} ∪ {x | x = q ∧ p ∈ rest})
          (messagesTo s (h.sendToViewer b watcher (.peerLeft b q))) := by
        rw [messagesTo_sendToViewer hsound.indexed hs]
        by_cases hw : watcher = p
        · subst hw
          rw [if_pos ⟨rfl, rfl⟩]
          refine carries_peerLeft (fun x => ?_) (Ne.symm hne)
          simp only [Set.mem_union, Set.mem_ofPred_eq, hwatcher, and_false, or_false,
            List.mem_cons_self, and_true]
          constructor
          · exact fun hx => ⟨Or.inl hx, fun he => hunseen (he ▸ hx)⟩
          · exact fun hx => hx.1.resolve_right hx.2
        · rw [if_neg fun hand => hw hand.2]
          have hsame : p ∈ watcher :: rest ↔ p ∈ rest := by simp [Ne.symm hw]
          rw [hsame]
          exact Carries.refl _
      have hfill := carries_announceFill hsound hs hv hgood watcher {x | x = q ∧ p ∈ rest} (by
        rintro x ⟨rfl, -⟩
        exact hunseen)
      have hlater := carries_refill hsound hs hgood q rest (hv.fill b watcher) hrest hqrest
        (mt (NeighborViews.mem_members_fill hv).mp hmem)
      have hall := (hgone.trans hfill).trans hlater
      rw [← messagesTo_append, ← messagesTo_append] at hall
      exact hall

/-- The messages of a leave carry a watcher's view to the refilled one. -/
theorem carries_leave (hsound : h.Sound) (hs : s ∈ h.viewerSockets b p)
    (hgood : ∀ q peer, h.store.getPeer b q = some peer → good q {x | x ∈ peer.segments})
    {v : NeighborViews} (hwf : v.WellFormed) {q : PeerId} (habsent : q ∉ h.stored b) :
    Carries good (h.stored b) b p {x | x ∈ v.viewOf b p}
      {x | x ∈ (h.refill b q (v.leave b q).2 (v.leave b q).1).1.viewOf b p}
      (messagesTo s (h.refill b q (v.leave b q).2 (v.leave b q).1).2) := by
  have hqleft : q ∉ (v.leave b q).1.members b := fun hx =>
    ((NeighborViews.mem_members_leave hwf).mp hx).2 ⟨rfl, rfl⟩
  have hqlost : q ∉ (v.leave b q).2 := fun hx =>
    NeighborViews.not_mem_viewOf_self hwf b q ((NeighborViews.mem_leave hwf).mp hx)
  have hrefill := carries_refill hsound hs hgood q (v.leave b q).2 (hwf.leave b q)
    (NeighborViews.nodup_leave hwf b q) hqlost hqleft
  have hstart : ∀ x, x ∈ ({x | x ∈ (v.leave b q).1.viewOf b p} ∪
      {x | x = q ∧ p ∈ (v.leave b q).2} : Set PeerId) ↔ x ∈ v.viewOf b p ∧ (p = q → False) := by
    intro x
    simp only [Set.mem_union, Set.mem_ofPred_eq, NeighborViews.mem_viewOf_leave hwf,
      NeighborViews.mem_leave hwf, true_implies]
    constructor
    · rintro (⟨hx, hp, -⟩ | ⟨rfl, hx⟩)
      · exact ⟨hx, hp⟩
      · refine ⟨hx, ?_⟩
        rintro rfl
        exact NeighborViews.not_mem_viewOf_self hwf b p hx
    · rintro ⟨hx, hp⟩
      by_cases hxq : x = q
      · exact Or.inr ⟨hxq, hxq ▸ hx⟩
      · exact Or.inl ⟨hx, hp, hxq⟩
  -- First `q` itself leaves every view, then the watchers that lost it are told.
  have hnarrow : Carries good (h.stored b) b p {x | x ∈ v.viewOf b p}
      ({x | x ∈ (v.leave b q).1.viewOf b p} ∪ {x | x = q ∧ p ∈ (v.leave b q).2}) [] := by
    refine Carries.narrow (fun x hx => ((hstart x).mp hx).1) fun hp => ?_
    ext x
    rw [hstart]
    refine and_iff_left ?_
    rintro rfl
    exact habsent hp
  exact hnarrow.trans hrefill

/-- Refills on another broadcast are none of a socket's business. -/
theorem refill_of_ne (hi : h.Indexed) (hs : s ∈ h.viewerSockets b p) {b' : BroadcastId}
    (hb : b' ≠ b) (q : PeerId) : ∀ (watchers : List PeerId) (v : NeighborViews),
      (h.refill b' q watchers v).1.viewOf b p = v.viewOf b p ∧
        messagesTo s (h.refill b' q watchers v).2 = []
  | [], _ => ⟨rfl, rfl⟩
  | watcher :: rest, v => by
      obtain ⟨hview, hnone⟩ := refill_of_ne hi hs hb q rest (v.fill b' watcher).1
      refine ⟨hview.trans (viewOf_fill_of_ne v hb watcher), ?_⟩
      simp only [refill, messagesTo_append, messagesTo_announceFill_of_ne hi hs hb, hnone,
        messagesTo_sendToViewer hi hs, hb, false_and, if_false, List.append_nil]

theorem refill_wellFormed (h : TrackerWebSocketHub) (b : BroadcastId) (q : PeerId) :
    ∀ (watchers : List PeerId) {v : NeighborViews}, v.WellFormed →
      (h.refill b q watchers v).1.WellFormed ∧
        ∀ b' x, x ∈ (h.refill b q watchers v).1.members b' ↔ x ∈ v.members b'
  | [], _, hv => ⟨hv, fun _ _ => Iff.rfl⟩
  | watcher :: rest, v, hv => by
      obtain ⟨hwf, hmembers⟩ := refill_wellFormed h b q rest (hv.fill b watcher)
      exact ⟨hwf, fun b' x => (hmembers b' x).trans (NeighborViews.mem_members_fill hv)⟩

end Carrying

/-! ## The handlers -/

theorem mem_listPeers {store : TrackerStore} {peers : List Peer}
    (hlist : store.listPeers b none = .ok peers) {peer : Peer} :
    peer ∈ peers ↔ ∃ q, store.getPeer b q = some peer := by
  unfold TrackerStore.listPeers at hlist
  cases hr : store.requireBroadcast b with
  | error e =>
      rw [hr] at hlist
      cases hlist
  | ok state =>
      rw [hr] at hlist
      obtain rfl := Except.ok.inj hlist
      have hget : ∀ q, store.getPeer b q = (state.peers.get? q).map PeerState.peer := by
        intro q
        rw [TrackerStore.getPeer, TrackerStore.peerState?, TrackerStore.requireBroadcast_ok.mp hr,
          Option.bind_some]
      simp only [List.filter_true, List.mem_map, OrderedMap.mem_values_iff, hget,
        Option.map_eq_some_iff]
      constructor
      · rintro ⟨peerState, ⟨q, hq⟩, rfl⟩
        exact ⟨q, peerState, hq, rfl⟩
      · rintro ⟨q, peerState, hq, rfl⟩
        exact ⟨peerState, ⟨q, hq⟩, rfl⟩

theorem addPeers_spec (peers : List Peer) : ∀ {v : NeighborViews}, v.WellFormed →
    (peers.foldl (fun views peer => views.add b peer.id) v).WellFormed ∧
      (∀ b' p, (peers.foldl (fun views peer => views.add b peer.id) v).viewOf b' p
        = v.viewOf b' p) ∧
      ∀ b' x, x ∈ (peers.foldl (fun views peer => views.add b peer.id) v).members b' ↔
        x ∈ v.members b' ∨ b' = b ∧ ∃ peer ∈ peers, peer.id = x := by
  induction peers with
  | nil => exact fun hv => ⟨hv, fun _ _ => rfl, fun _ _ => by simp⟩
  | cons peer rest ih =>
      intro v hv
      obtain ⟨hwf, hviews, hmembers⟩ := ih (hv.add b peer.id)
      refine ⟨hwf, fun b' p => (hviews b' p).trans (NeighborViews.viewOf_add hv ..), ?_⟩
      intro b' x
      rw [List.foldl_cons, hmembers, NeighborViews.mem_members_add hv, or_assoc, ← and_or_left]
      simp [eq_comm]

/-- Seeding registers stored peers and links nobody. -/
theorem seededViews_spec (hsound : h.Sound) {views : NeighborViews}
    (hseed : h.seededViews b = some views) :
    views.WellFormed ∧ ∃ v, h.neighborViews = some v ∧
      (∀ b' p, views.viewOf b' p = v.viewOf b' p) ∧
      (∀ b' x, x ∈ v.members b' → x ∈ views.members b') ∧
      ∀ b' x, x ∈ views.members b' → x ∈ v.members b' ∨ b' = b ∧ x ∈ h.stored b := by
  obtain ⟨v, hv, rfl⟩ := Option.map_eq_some_iff.mp hseed
  have hwf := hsound.views v hv
  split_ifs
  · exact ⟨hwf, v, hv, fun _ _ => rfl, fun _ _ => id, fun _ _ => Or.inl⟩
  · cases hlist : h.store.listPeers b none with
    | error e => exact ⟨hwf, v, hv, fun _ _ => rfl, fun _ _ => id, fun _ _ => Or.inl⟩
    | ok peers =>
        obtain ⟨hwf', hviews, hmembers⟩ := addPeers_spec (b := b) peers hwf
        refine ⟨hwf', v, hv, hviews, fun b' x hx => (hmembers b' x).mpr (Or.inl hx), ?_⟩
        intro b' x hx
        refine ((hmembers b' x).mp hx).imp_right ?_
        rintro ⟨hb, peer, hpeer, rfl⟩
        obtain ⟨q, hq⟩ := (mem_listPeers hlist).mp hpeer
        obtain rfl := hsound.keyed b q peer hq
        exact ⟨hb, Option.isSome_iff_exists.mpr ⟨peer, hq⟩⟩

/-- The hub whose views were seeded, with `a` added and filled. -/
def topUp (h : TrackerWebSocketHub) (views : NeighborViews) (b : BroadcastId) (a : PeerId) :
    TrackerWebSocketHub :=
  { h with neighborViews := some ((views.add b a).fill b a).1 }

theorem topUp_handled (hsound : h.Sound) {views : NeighborViews} {b' : BroadcastId}
    (hseed : h.seededViews b' = some views) (a : PeerId) (announced : Outgoing)
    (hquiet : ∀ s b p, s ∈ h.viewerSockets b p → messagesTo s announced = []) :
    Handled h (h.topUp views b' a) (announced ++
      h.announceFill b' a ((views.add b' a).fill b' a).2 (h.store.getPeer b')) := by
  obtain ⟨hwf, v, hv, hviews, -, -⟩ := seededViews_spec hsound hseed
  have hadd := hwf.add b' a
  refine ⟨rfl, rfl, rfl, rfl, rfl, rfl, rfl, ?_, by rw [topUp, hv]; rfl, ?_⟩
  · rintro v' hv'
    exact Option.some.inj hv' ▸ hadd.fill b' a
  intro s b p hs good hgood
  have hbefore : h.shown b p = {x | x ∈ (views.add b' a).viewOf b p} := by
    rw [shown_of_eq hv, NeighborViews.viewOf_add hwf, hviews]
  have hafter : (h.topUp views b' a).shown b p
      = {x | x ∈ ((views.add b' a).fill b' a).1.viewOf b p} := shown_of_eq rfl
  rw [hbefore, hafter, messagesTo_append, hquiet s b p hs, List.nil_append]
  by_cases hb : b' = b
  · subst hb
    have := carries_announceFill hsound hs hadd hgood a ∅ (fun _ hx => nomatch hx)
    simpa only [Set.union_empty] using this
  · rw [messagesTo_announceFill_of_ne hsound.indexed hs hb, viewOf_fill_of_ne _ hb]
    exact Carries.refl _

theorem mem_members_topUp (hsound : h.Sound) {views : NeighborViews} {b' : BroadcastId}
    (hseed : h.seededViews b' = some views) (a : PeerId) :
    a ∈ (h.topUp views b' a).members b' ∧
      (∀ b x, x ∈ h.members b → x ∈ (h.topUp views b' a).members b) ∧
      ∀ b x, x ∈ (h.topUp views b' a).members b →
        x ∈ h.members b ∨ b = b' ∧ (x ∈ h.stored b' ∨ x = a) := by
  obtain ⟨hwf, v, hv, -, hsub, hnew⟩ := seededViews_spec hsound hseed
  have hiff : ∀ b x, x ∈ (h.topUp views b' a).members b ↔
      x ∈ views.members b ∨ b = b' ∧ x = a := by
    intro b x
    rw [members_of_eq (h := h.topUp views b' a) rfl, Set.mem_ofPred_eq,
      NeighborViews.mem_members_fill (hwf.add b' a), NeighborViews.mem_members_add hwf]
  have hold : ∀ b x, x ∈ h.members b ↔ x ∈ v.members b := by
    intro b x
    rw [members_of_eq hv]
    exact Iff.rfl
  refine ⟨(hiff b' a).mpr (Or.inr ⟨rfl, rfl⟩), fun b x hx => ?_, fun b x hx => ?_⟩
  · exact (hiff b x).mpr (Or.inl (hsub b x ((hold b x).mp hx)))
  · rcases (hiff b x).mp hx with hx | ⟨hb, rfl⟩
    · rcases hnew b x hx with hx | ⟨hb, hx⟩
      · exact Or.inl ((hold b x).mpr hx)
      · exact Or.inr ⟨hb, Or.inl hx⟩
    · exact Or.inr ⟨hb, Or.inr rfl⟩

/-- Everything `peerJoined` does. -/
theorem peerJoined_spec (hsound : h.Sound) {b' : BroadcastId} {peer : Peer}
    (hstored : h.store.getPeer b' peer.id = some peer) :
    ∃ h' out, h.peerJoined b' peer = h'.deliver out ∧ Handled h h' out ∧
      h'.pendingInventory = h.pendingInventory ∧
      (h.neighborViews.isSome → peer.id ∈ h'.members b') ∧
      (∀ b x, x ∈ h.members b → x ∈ h'.members b) ∧
      ∀ b x, x ∈ h'.members b → x ∈ h.members b ∨ b = b' ∧ x ∈ h.stored b' := by
  have hquiet : ∀ s b p, s ∈ h.viewerSockets b p →
      messagesTo s (h.broadcast (.peerJoined b' peer)) = [] :=
    fun s b p hs => messagesTo_broadcast hsound.indexed hs _
  have hlookup : (fun id => if id = peer.id then some peer else h.store.getPeer b' id)
      = h.store.getPeer b' := by
    funext id
    split_ifs with hid
    · rw [hid, hstored]
    · rfl
  unfold peerJoined
  cases hseed : h.seededViews b' with
  | none =>
      have hnone : h.neighborViews = none := Option.map_eq_none_iff.mp hseed
      refine ⟨h, _, rfl, ⟨rfl, rfl, rfl, rfl, rfl, rfl, rfl, hsound.views, rfl, ?_⟩, rfl, ?_,
        fun _ _ => id, fun _ _ => Or.inl⟩
      · intro s b p hs good _
        rw [hquiet s b p hs]
        exact Carries.refl _
      · rw [hnone]
        exact fun hsome => absurd hsome (by simp)
  | some views =>
      obtain ⟨hself, hsub, hnew⟩ := mem_members_topUp hsound hseed peer.id
      dsimp only
      rw [hlookup]
      refine ⟨h.topUp views b' peer.id, _, rfl, topUp_handled hsound hseed peer.id _ hquiet, rfl,
        fun _ => hself, hsub, fun b x hx => (hnew b x hx).imp_right fun hx => ⟨hx.1, ?_⟩⟩
      rcases hx.2 with hx | rfl
      · exact hx
      · exact Option.isSome_iff_exists.mpr ⟨peer, hstored⟩

/-- Everything `peerLeft` does for a peer that is no longer stored. -/
theorem peerLeft_spec (hsound : h.Sound) {b' : BroadcastId} {q : PeerId}
    (habsent : q ∉ h.stored b') :
    ∃ h' out, h.peerLeft b' q = h'.deliver out ∧ Handled h h' out ∧
      h'.pendingInventory = h.pendingInventory.modify b' (fun updates => updates.delete q) ∧
      ∀ b x, x ∈ h'.members b ↔ x ∈ h.members b ∧ ¬ (b = b' ∧ x = q) := by
  have hquiet : ∀ s b p, s ∈ h.viewerSockets b p →
      messagesTo s (h.broadcast (.peerLeft b' q)) = [] :=
    fun s b p hs => messagesTo_broadcast hsound.indexed hs _
  set cleared : TrackerWebSocketHub :=
    { h with
      pendingInventory := h.pendingInventory.modify b' (fun updates => updates.delete q) }
    with hcleared
  have hsound' : cleared.Sound :=
    ⟨hsound.indexed.congr rfl rfl rfl fun _ => id, hsound.views, hsound.keyed, hsound.viewing⟩
  cases hv : h.neighborViews with
  | none =>
      refine ⟨cleared, cleared.broadcast (.peerLeft b' q), ?_,
        ⟨rfl, rfl, rfl, rfl, rfl, rfl, rfl, hsound.views, rfl, ?_⟩, rfl, ?_⟩
      · unfold peerLeft
        rw [hcleared]
        dsimp only
        rw [hv]
      · intro s b p hs good _
        change Carries _ _ _ _ _ _ (messagesTo s (h.broadcast (.peerLeft b' q)))
        rw [hquiet s b p hs]
        exact Carries.refl _
      · intro b x
        have hnone : x ∉ h.members b := by
          rintro ⟨v, hv', -⟩
          exact absurd (hv.symm.trans hv') (by simp)
        exact iff_of_false hnone fun hx => hnone hx.1
  | some v =>
      have hwf := hsound.views v hv
      have hleft := hwf.leave b' q
      set left := (v.leave b' q).1 with hleftDef
      set lost := (v.leave b' q).2 with hlost
      obtain ⟨hfinal, hmembers⟩ := refill_wellFormed cleared b' q lost hleft
      refine ⟨{ cleared with neighborViews := some (cleared.refill b' q lost left).1 },
        cleared.broadcast (.peerLeft b' q) ++ (cleared.refill b' q lost left).2, ?_,
        ⟨rfl, rfl, rfl, rfl, rfl, rfl, rfl, ?_, by rw [hv]; rfl, ?_⟩, rfl, ?_⟩
      · unfold peerLeft
        rw [hcleared]
        dsimp only
        rw [hv]
      · rintro v' hv'
        exact Option.some.inj hv' ▸ hfinal
      · intro s b p hs good hgood
        change Carries _ _ _ _ _ _ (messagesTo s (h.broadcast (.peerLeft b' q) ++ _))
        rw [messagesTo_append, hquiet s b p hs, List.nil_append, shown_of_eq hv,
          shown_of_eq (h := { cleared with
            neighborViews := some (cleared.refill b' q lost left).1 }) rfl]
        by_cases hb : b' = b
        · subst hb
          exact carries_leave hsound' hs hgood hwf habsent
        · obtain ⟨hview, hnone⟩ := refill_of_ne hsound'.indexed hs hb q lost left
          have hkept : left.viewOf b p = v.viewOf b p := by
            rw [hleftDef, NeighborViews.viewOf, v.broadcastViews_leave_of_ne (Ne.symm hb)]
            rfl
          rw [hnone, hview, hkept]
          exact Carries.refl _
      · intro b x
        rw [members_of_eq hv, members_of_eq (h := { cleared with
          neighborViews := some (cleared.refill b' q lost left).1 }) rfl]
        exact (hmembers b x).trans (NeighborViews.mem_members_leave hwf)

end TrackerWebSocketHub

end OpenStreamGrid
