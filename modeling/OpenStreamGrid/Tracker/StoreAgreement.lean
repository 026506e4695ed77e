import OpenStreamGrid.Lib.TransitionSystem
import OpenStreamGrid.Tracker.SqliteStore

/-!
# Two stores, one inventory

A `TrackerStore` and a `SQLiteStore` run side by side on the same operations.
Which IDs a cap evicts depends on their order, which the memory store rebuilds
per report and the SQLite store keeps in rowid order. `Agree` relates the two
stores up to that order; it survives every operation except an evicting report
on an inventory the two stores hold in different orders.
-/

namespace OpenStreamGrid

/-- The operations that decide which inventories are stored. -/
inductive InventoryOp where
  | registerBroadcast (timestamp : Timestamp) (registration : BroadcastRegistration)
  | joinPeer (timestamp : Timestamp) (broadcastId : BroadcastId) (request : PeerJoinRequest)
      (options : JoinPeerOptions)
  | reportSegments (timestamp : Timestamp) (broadcastId : BroadcastId) (peerId : PeerId)
      (segments : List SegmentId) (replace : Bool)
  | applySegmentDelta (timestamp : Timestamp) (broadcastId : BroadcastId) (peerId : PeerId)
      (added removed : List SegmentId)
  | leavePeer (broadcastId : BroadcastId) (peerId : PeerId)
deriving DecidableEq

/-- The store after an operation: a throwing one leaves it as it was. -/
def stateAfter {σ α : Type} (s : σ) : Except StoreError (σ × α) → σ
  | .ok result => result.1
  | .error _ => s

theorem stateAfter_of_ok {σ α : Type} {s s' : σ} {r : Except StoreError (σ × α)}
    (h : ∃ a, r = .ok (s', a)) : stateAfter s r = s' := by
  obtain ⟨a, rfl⟩ := h
  rfl

theorem stateAfter_of_not_ok {σ α : Type} {s : σ} {r : Except StoreError (σ × α)}
    (h : ¬ ∃ result, r = .ok result) : stateAfter s r = s := by
  cases r with
  | error e => rfl
  | ok result => exact absurd ⟨result, rfl⟩ h

def TrackerStore.applyOp (s : TrackerStore) : InventoryOp → TrackerStore
  | .registerBroadcast t registration => (s.registerBroadcast t registration).1
  | .joinPeer t b request options => stateAfter s (s.joinPeerDetailed t b request options)
  | .reportSegments t b p segments replace =>
      stateAfter s (s.reportSegments t b p segments replace)
  | .applySegmentDelta t b p added removed =>
      stateAfter s (s.applySegmentDelta t b p added removed)
  | .leavePeer b p =>
      match s.leavePeer b p with
      | .ok s' => s'
      | .error _ => s

def SQLiteStore.applyOp (s : SQLiteStore) : InventoryOp → SQLiteStore
  | .registerBroadcast t registration => (s.registerBroadcast t registration).1
  | .joinPeer t b request options => stateAfter s (s.joinPeerDetailed t b request options)
  | .reportSegments t b p segments replace =>
      stateAfter s (s.reportSegments t b p segments replace)
  | .applySegmentDelta t b p added removed =>
      stateAfter s (s.applySegmentDelta t b p added removed)
  | .leavePeer b p =>
      match s.leavePeer b p with
      | .ok s' => s'
      | .error _ => s

/-- Both stores, started empty with the same caps, on the same operations. -/
def storePair (maxSegmentsPerPeer : ℕ) :
    TransitionSystem (TrackerStore × SQLiteStore) InventoryOp where
  init s := s = (.new maxSegmentsPerPeer, .new maxSegmentsPerPeer)
  step s op := some (s.1.applyOp op, s.2.applyOp op)

/-- Every peer has the same set of segment IDs in both stores. -/
def SameInventories (m : TrackerStore) (q : SQLiteStore) : Prop :=
  ∀ b p, (m.getPeer b p).map (fun peer => peer.segments.toFinset)
    = (q.getPeer b p).map (fun peer => peer.segments.toFinset)

/-- A report that may evict finds the IDs it merges with in the same order in
both stores. A replacement merges with none, a delta with those it does not
remove; a report evicts nothing when what it merges to is within the caps. -/
def SameOrderOrFits (s : TrackerStore × SQLiteStore) : InventoryOp → Prop
  | .reportSegments _ b p segments replace =>
      ∀ peer ∈ s.1.getPeer b p,
        replace = true ∨ peer.segments = s.2.getSegments b p ∨
          WithinCaps s.1.maxSegmentsPerPeer (mergedReport peer.segments segments replace)
  | .applySegmentDelta _ b p added removed =>
      ∀ peer ∈ s.1.getPeer b p,
        peer.segments.filter (fun x => decide (x ∉ removed))
            = (s.2.getSegments b p).filter (fun x => decide (x ∉ removed)) ∨
          WithinCaps s.1.maxSegmentsPerPeer (mergedDelta peer.segments added removed)
  | _ => True

instance (s : TrackerStore × SQLiteStore) : ∀ op, Decidable (SameOrderOrFits s op)
  | .registerBroadcast _ _ => isTrue trivial
  | .joinPeer _ _ _ _ => isTrue trivial
  | .reportSegments _ _ _ _ _ => inferInstanceAs (Decidable (∀ peer ∈ _, _ ∨ _ ∨ _))
  | .applySegmentDelta _ _ _ _ _ => inferInstanceAs (Decidable (∀ peer ∈ _, _ ∨ _))
  | .leavePeer _ _ => isTrue trivial

/-! ## The merged lists of the two stores -/

theorem nodup_mergedReport (existing segments : List SegmentId) (replace : Bool) :
    (mergedReport existing segments replace).Nodup := OrderedSet.nodup _

theorem nodup_mergedDelta (existing added removed : List SegmentId) :
    (mergedDelta existing added removed).Nodup := OrderedSet.nodup _

theorem mem_mergedReport {existing segments : List SegmentId} {replace : Bool} {x : SegmentId} :
    x ∈ mergedReport existing segments replace ↔
      replace = false ∧ x ∈ existing ∨ x ∈ segments := by
  cases replace <;> simp [mergedReport]

theorem mem_mergedDelta {existing added removed : List SegmentId} {x : SegmentId} :
    x ∈ mergedDelta existing added removed ↔ x ∈ existing ∧ x ∉ removed ∨ x ∈ added := by
  simp [mergedDelta]

/-- A delta sees the existing order only through the IDs it keeps. -/
theorem mergedDelta_congr {xs ys added removed : List SegmentId} (hx : xs.Nodup) (hy : ys.Nodup)
    (h : xs.filter (fun x => decide (x ∉ removed)) = ys.filter (fun x => decide (x ∉ removed))) :
    mergedDelta xs added removed = mergedDelta ys added removed := by
  unfold mergedDelta
  have kept : (OrderedSet.ofList xs).eraseAll removed = (OrderedSet.ofList ys).eraseAll removed := by
    apply OrderedSet.ext
    rw [OrderedSet.toList_eraseAll, OrderedSet.toList_eraseAll,
      OrderedSet.toList_ofList_of_nodup hx, OrderedSet.toList_ofList_of_nodup hy, h]
  rw [kept]

/-- Capped lists with the same elements keep the same elements if they are the
same list or if nothing is dropped. -/
theorem mem_limitInventory_congr {xs ys : List SegmentId} {m : ℕ} (hx : xs.Nodup) (hy : ys.Nodup)
    (hmem : ∀ x, x ∈ xs ↔ x ∈ ys) (h : xs = ys ∨ WithinCaps m xs) (x : SegmentId) :
    x ∈ limitInventory xs m ↔ x ∈ limitInventory ys m := by
  rcases h with rfl | hfits
  · rfl
  · have hperm : xs.Perm ys := (List.perm_ext_iff_of_nodup hx hy).mpr hmem
    rw [limitInventory_eq_self_iff.mpr hfits,
      limitInventory_eq_self_iff.mpr ((Fits.perm hperm).mp hfits)]
    exact hmem x

/-! ## The agreement relation -/

/-- The two stores hold the same broadcasts, peers and segment sets. -/
structure Agree (m : TrackerStore) (q : SQLiteStore) : Prop where
  maxSegmentsPerPeer : m.maxSegmentsPerPeer = q.maxSegmentsPerPeer
  broadcasts : ∀ b, b ∈ m.broadcasts ↔ b ∈ q.broadcasts
  peers : ∀ b p, (m.peerState? b p).isSome = (q.findPeer b p).isSome
  segments : ∀ b p peerState, m.peerState? b p = some peerState →
    ∀ x, x ∈ peerState.peer.segments ↔ x ∈ q.getSegments b p
  nodup : ∀ b p peerState, m.peerState? b p = some peerState → peerState.peer.segments.Nodup
  orphans : ∀ b p, q.findPeer b p = none → ∀ x, x ∉ q.getSegments b p

theorem agree_new (maxSegmentsPerPeer : ℕ) :
    Agree (.new maxSegmentsPerPeer) (.new maxSegmentsPerPeer) where
  maxSegmentsPerPeer := rfl
  broadcasts := fun _ => Iff.rfl
  peers := fun _ _ => rfl
  segments := fun _ _ _ h => nomatch h
  nodup := fun _ _ _ h => nomatch h
  orphans := fun _ _ _ _ h => List.not_mem_nil h

theorem Agree.sameInventories {m : TrackerStore} {q : SQLiteStore} (h : Agree m q) :
    SameInventories m q := by
  intro b p
  have hpresent := h.peers b p
  unfold TrackerStore.getPeer SQLiteStore.getPeer
  cases hm : m.peerState? b p with
  | none =>
      rw [hm, Option.isSome_none] at hpresent
      have hq : q.findPeer b p = none := by
        rw [← Option.not_isSome_iff_eq_none, ← hpresent]
        exact Bool.false_ne_true
      rw [hq]
      rfl
  | some peerState =>
      rw [hm, Option.isSome_some] at hpresent
      obtain ⟨row, hrow⟩ := Option.isSome_iff_exists.mp hpresent.symm
      rw [hrow]
      simp only [Option.map_some, Option.some.injEq]
      ext x
      rw [List.mem_toFinset, List.mem_toFinset]
      exact h.segments b p peerState hm x

/-- One peer changes in both stores alike. -/
theorem Agree.update {m m' : TrackerStore} {q q' : SQLiteStore} {b : BroadcastId} {p : PeerId}
    {new : Option PeerState} {present : Bool} {segments : SegmentId → Prop} (h : Agree m q)
    (hm : m.PeerUpdated m' b p new) (hq : q.RowsUpdated q' b p present segments)
    (hpresent : new.isSome = present)
    (hsegments : ∀ peerState, new = some peerState →
      peerState.peer.segments.Nodup ∧ ∀ x, x ∈ peerState.peer.segments ↔ segments x)
    (habsent : present = false → ∀ x, ¬ segments x) : Agree m' q' where
  maxSegmentsPerPeer := by
    rw [hm.maxSegmentsPerPeer, hq.maxSegmentsPerPeer, h.maxSegmentsPerPeer]
  broadcasts := by
    intro b'
    rw [hm.broadcasts, hq.broadcasts, h.broadcasts]
  peers := by
    intro b' p'
    rw [hm.peerState?, hq.findPeer]
    split_ifs
    · exact hpresent
    · exact h.peers b' p'
  segments := by
    intro b' p' peerState hsome x
    rw [hm.peerState?] at hsome
    by_cases hbp : b' = b ∧ p' = p
    · rw [if_pos hbp] at hsome
      rw [hbp.1, hbp.2, hq.segments_same]
      exact (hsegments peerState hsome).2 x
    · rw [if_neg hbp] at hsome
      rw [hq.segments_other b' p' x hbp]
      exact h.segments b' p' peerState hsome x
  nodup := by
    intro b' p' peerState hsome
    rw [hm.peerState?] at hsome
    split_ifs at hsome with hbp
    · exact (hsegments peerState hsome).1
    · exact h.nodup b' p' peerState hsome
  orphans := by
    intro b' p' hnone x
    have hfind := hq.findPeer b' p'
    rw [hnone, Option.isSome_none] at hfind
    by_cases hbp : b' = b ∧ p' = p
    · rw [if_pos hbp] at hfind
      rw [hbp.1, hbp.2, hq.segments_same]
      exact habsent hfind.symm x
    · rw [if_neg hbp] at hfind
      rw [hq.segments_other b' p' x hbp]
      exact h.orphans b' p' (Option.not_isSome_iff_eq_none.mp (by simp [← hfind])) x

/-- Stores that hold the same peers list the same IDs for a broadcast. -/
theorem peerIds_perm {m : TrackerStore} {q : SQLiteStore}
    (hpeers : ∀ b p, (m.peerState? b p).isSome = (q.findPeer b p).isSome) {b : BroadcastId}
    {state : BroadcastState} (hs : m.broadcasts.get? b = some state) :
    ((q.peers.keys.filter fun key => decide (key.1 = b)).map Prod.snd).Perm state.peers.keys := by
  refine (List.perm_ext_iff_of_nodup ?_ state.peers.nodupKeys).mpr fun p => ?_
  · refine List.Nodup.map_on ?_ (q.peers.nodupKeys.filter _)
    rintro ⟨b₁, p₁⟩ h₁ ⟨b₂, p₂⟩ h₂ heq
    simp only [List.mem_filter, decide_eq_true_eq] at h₁ h₂
    rw [h₁.2, h₂.2]
    exact congrArg (Prod.mk b) heq
  · have hp := hpeers b p
    simp only [TrackerStore.peerState?, hs, Option.bind_some, SQLiteStore.findPeer] at hp
    change p ∈ _ ↔ p ∈ state.peers
    rw [OrderedMap.mem_iff_isSome, hp, ← OrderedMap.mem_iff_isSome, OrderedMap.mem_iff_mem_keys]
    simp

/-- Stores that hold the same peers count them alike. -/
theorem countPeers_eq_size {m : TrackerStore} {q : SQLiteStore}
    (hpeers : ∀ b p, (m.peerState? b p).isSome = (q.findPeer b p).isSome) {b : BroadcastId}
    {state : BroadcastState} (hs : m.broadcasts.get? b = some state) :
    q.countPeers b = state.peers.size := by
  rw [SQLiteStore.countPeers, List.countP_eq_length_filter, ← OrderedMap.length_keys,
    ← (peerIds_perm hpeers hs).length_eq, List.length_map]

/-- Both stores count the same peers, so a join limit stops them alike. -/
theorem Agree.countPeers {m : TrackerStore} {q : SQLiteStore} (h : Agree m q) {b : BroadcastId}
    {state : BroadcastState} (hs : m.broadcasts.get? b = some state) :
    q.countPeers b = state.peers.size := countPeers_eq_size h.peers hs

theorem Agree.isNone_findPeer {m : TrackerStore} {q : SQLiteStore} (h : Agree m q)
    {b : BroadcastId} {state : BroadcastState} (hs : m.broadcasts.get? b = some state)
    (p : PeerId) : (q.findPeer b p).isNone = (state.peers.get? p).isNone := by
  have hfound : m.peerState? b p = state.peers.get? p := by
    simp [TrackerStore.peerState?, hs]
  rw [← Option.not_isSome, ← Option.not_isSome, ← h.peers, hfound]

/-! ## Every operation keeps the agreement -/

theorem Agree.registerBroadcast {m : TrackerStore} {q : SQLiteStore} (h : Agree m q)
    (t : Timestamp) (registration : BroadcastRegistration) :
    Agree (m.registerBroadcast t registration).1 (q.registerBroadcast t registration).1 := by
  have hq : ∀ b, b ∈ (q.registerBroadcast t registration).1.broadcasts ↔
      b ∈ q.broadcasts ∨ b = registration.id := by
    intro b
    unfold SQLiteStore.registerBroadcast
    cases q.findBroadcast registration.id <;> exact OrderedMap.mem_set
  have hframe : (q.registerBroadcast t registration).1.peers = q.peers ∧
      (q.registerBroadcast t registration).1.peerSegments = q.peerSegments ∧
      (q.registerBroadcast t registration).1.maxSegmentsPerPeer = q.maxSegmentsPerPeer := by
    unfold SQLiteStore.registerBroadcast
    cases q.findBroadcast registration.id <;> exact ⟨rfl, rfl, rfl⟩
  have hfind : ∀ b p, (q.registerBroadcast t registration).1.findPeer b p = q.findPeer b p := by
    intro b p
    unfold SQLiteStore.findPeer
    rw [hframe.1]
  have hget : ∀ b p,
      (q.registerBroadcast t registration).1.getSegments b p = q.getSegments b p :=
    fun b p => SQLiteStore.getSegments_congr hframe.2.1 b p
  refine ⟨?_, ?_, ?_, ?_, ?_, ?_⟩
  · rw [TrackerStore.registerBroadcast_maxSegmentsPerPeer, hframe.2.2, h.maxSegmentsPerPeer]
  · intro b
    rw [TrackerStore.mem_registerBroadcast, hq, h.broadcasts]
  · intro b p
    rw [TrackerStore.peerState?_registerBroadcast, hfind, h.peers]
  · intro b p peerState hp
    rw [TrackerStore.peerState?_registerBroadcast] at hp
    rw [hget]
    exact h.segments b p peerState hp
  · intro b p peerState hp
    rw [TrackerStore.peerState?_registerBroadcast] at hp
    exact h.nodup b p peerState hp
  · intro b p hp
    rw [hfind] at hp
    rw [hget]
    exact h.orphans b p hp

theorem Agree.joinPeer {m : TrackerStore} {q : SQLiteStore} (h : Agree m q) (t : Timestamp)
    (b : BroadcastId) (request : PeerJoinRequest) (options : JoinPeerOptions) :
    Agree (stateAfter m (m.joinPeerDetailed t b request options))
      (stateAfter q (q.joinPeerDetailed t b request options)) := by
  by_cases hok : ∃ result, m.joinPeerDetailed t b request options = .ok result
  · obtain ⟨⟨m', peer, already⟩, hjoin⟩ := hok
    obtain ⟨state, hs, hlimit, rfl, rfl, rfl⟩ := TrackerStore.joinPeerDetailed_ok.mp hjoin
    have hfound : m.peerState? b request.id = state.peers.get? request.id := by
      simp [TrackerStore.peerState?, hs]
    have hnone := h.isNone_findPeer hs request.id
    have hq : ∃ peer already, q.joinPeerDetailed t b request options = .ok (_, peer, already) :=
      SQLiteStore.joinPeerDetailed_ok.mpr
        ⟨(h.broadcasts b).mp (OrderedMap.mem_of_get? hs), by
          rw [hnone, h.countPeers hs]
          exact hlimit, rfl⟩
    obtain ⟨qpeer, qalready, hq⟩ := hq
    rw [stateAfter_of_ok ⟨_, hjoin⟩, stateAfter_of_ok ⟨_, hq⟩]
    refine h.update (TrackerStore.peerUpdated_setPeer hs _ _) SQLiteStore.rowsUpdated_join rfl ?_
      (fun hfalse => absurd hfalse (by decide))
    rintro peerState heq
    obtain rfl := Option.some.inj heq
    cases hp : state.peers.get? request.id with
    | none =>
        rw [hp] at hfound
        refine ⟨List.nodup_nil, fun x => ⟨fun hx => absurd hx List.not_mem_nil, fun hx => ?_⟩⟩
        refine absurd hx (h.orphans b request.id ?_ x)
        rw [← Option.isNone_iff_eq_none, hnone, hp, Option.isNone_none]
    | some peerState =>
        rw [hp] at hfound
        exact ⟨h.nodup b request.id peerState hfound, h.segments b request.id peerState hfound⟩
  · rw [stateAfter_of_not_ok hok]
    rw [stateAfter_of_not_ok]
    · exact h
    rintro ⟨⟨q', qpeer, qalready⟩, hq⟩
    obtain ⟨hb, hlimit, -⟩ := SQLiteStore.joinPeerDetailed_ok.mp ⟨_, _, hq⟩
    obtain ⟨state, hs⟩ := OrderedMap.get?_of_mem ((h.broadcasts b).mpr hb)
    rw [h.isNone_findPeer hs, h.countPeers hs] at hlimit
    exact hok ⟨_, TrackerStore.joinPeerDetailed_ok.mpr ⟨state, hs, hlimit, rfl, rfl, rfl⟩⟩

/-- What reports and deltas share: the peer's inventory becomes what each store
caps its own merge to. -/
theorem Agree.withSegments {m m' : TrackerStore} {q : SQLiteStore} {b : BroadcastId} {p : PeerId}
    {peerState new : PeerState} {t : Timestamp} {merged qmerged : List SegmentId}
    (h : Agree m q) (hp : m.peerState? b p = some peerState)
    (hm : m.PeerUpdated m' b p (some new))
    (hnew : new.peer.segments = limitInventory merged m.maxSegmentsPerPeer)
    (hnd : merged.Nodup) (hqnd : qmerged.Nodup) (hmem : ∀ x, x ∈ merged ↔ x ∈ qmerged)
    (hsafe : merged = qmerged ∨ WithinCaps m.maxSegmentsPerPeer merged) :
    Agree m' (q.withSegments t b p (limitInventory qmerged q.maxSegmentsPerPeer)) := by
  have hrow : (q.findPeer b p).isSome := by rw [← h.peers, hp, Option.isSome_some]
  refine h.update hm (SQLiteStore.rowsUpdated_withSegments hrow) rfl ?_
    (fun hfalse => absurd hfalse (by decide))
  rintro _ ⟨⟩
  rw [hnew, ← h.maxSegmentsPerPeer]
  exact ⟨nodup_limitInventory hnd, mem_limitInventory_congr hnd hqnd hmem hsafe⟩

theorem Agree.reportSegments {m : TrackerStore} {q : SQLiteStore} (h : Agree m q) (t : Timestamp)
    (b : BroadcastId) (p : PeerId) (segments : List SegmentId) (replace : Bool)
    (hsafe : SameOrderOrFits (m, q) (.reportSegments t b p segments replace)) :
    Agree (stateAfter m (m.reportSegments t b p segments replace))
      (stateAfter q (q.reportSegments t b p segments replace)) := by
  by_cases hok : ∃ result, m.reportSegments t b p segments replace = .ok result
  · obtain ⟨⟨m', peer⟩, hreport⟩ := hok
    obtain ⟨peerState, hp, -, hm⟩ := TrackerStore.modifyPeer_updated hreport
    obtain ⟨state, hs, -⟩ := TrackerStore.peerState?_eq_some.mp hp
    have hq : ∃ peer, q.reportSegments t b p segments replace = .ok (_, peer) :=
      SQLiteStore.reportSegments_ok.mpr ⟨⟨(h.broadcasts b).mp (OrderedMap.mem_of_get? hs),
        by rw [← h.peers, hp, Option.isSome_some]⟩, rfl⟩
    rw [stateAfter_of_ok ⟨_, hreport⟩, stateAfter_of_ok hq]
    refine h.withSegments hp hm rfl (nodup_mergedReport ..) (nodup_mergedReport ..) ?_ ?_
    · intro x
      rw [mem_mergedReport, mem_mergedReport, h.segments b p peerState hp x]
    · rcases hsafe peerState.peer (by simp [TrackerStore.getPeer, hp]) with
        rfl | heq | hfits
      · exact Or.inl rfl
      · exact Or.inl (by rw [heq])
      · exact Or.inr hfits
  · rw [stateAfter_of_not_ok hok]
    rw [stateAfter_of_not_ok]
    · exact h
    rintro ⟨⟨q', qpeer⟩, hq⟩
    obtain ⟨⟨-, hrow⟩, -⟩ := SQLiteStore.reportSegments_ok.mp ⟨_, hq⟩
    rw [← h.peers] at hrow
    exact hok (TrackerStore.modifyPeer_isOk_iff.mpr hrow)

theorem Agree.applySegmentDelta {m : TrackerStore} {q : SQLiteStore} (h : Agree m q)
    (t : Timestamp) (b : BroadcastId) (p : PeerId) (added removed : List SegmentId)
    (hsafe : SameOrderOrFits (m, q) (.applySegmentDelta t b p added removed)) :
    Agree (stateAfter m (m.applySegmentDelta t b p added removed))
      (stateAfter q (q.applySegmentDelta t b p added removed)) := by
  by_cases hok : ∃ result, m.applySegmentDelta t b p added removed = .ok result
  · obtain ⟨⟨m', peer⟩, hdelta⟩ := hok
    obtain ⟨peerState, hp, -, hm⟩ := TrackerStore.modifyPeer_updated hdelta
    have hq : ∃ peer, q.applySegmentDelta t b p added removed = .ok (_, peer) :=
      SQLiteStore.applySegmentDelta_ok.mpr
        ⟨by rw [← h.peers b p, hp, Option.isSome_some], rfl⟩
    rw [stateAfter_of_ok ⟨_, hdelta⟩, stateAfter_of_ok hq]
    refine h.withSegments hp hm rfl (nodup_mergedDelta ..) (nodup_mergedDelta ..) ?_ ?_
    · intro x
      rw [mem_mergedDelta, mem_mergedDelta, h.segments b p peerState hp x]
    · rcases hsafe peerState.peer (by simp [TrackerStore.getPeer, hp]) with
        heq | hfits
      · exact Or.inl (mergedDelta_congr (h.nodup b p peerState hp) (q.nodup_getSegments b p) heq)
      · exact Or.inr hfits
  · rw [stateAfter_of_not_ok hok]
    rw [stateAfter_of_not_ok]
    · exact h
    rintro ⟨⟨q', qpeer⟩, hq⟩
    obtain ⟨hrow, -⟩ := SQLiteStore.applySegmentDelta_ok.mp ⟨_, hq⟩
    rw [← h.peers] at hrow
    exact hok (TrackerStore.modifyPeer_isOk_iff.mpr hrow)

theorem Agree.leavePeer {m : TrackerStore} {q : SQLiteStore} (h : Agree m q) (b : BroadcastId)
    (p : PeerId) : Agree (m.applyOp (.leavePeer b p)) (q.applyOp (.leavePeer b p)) := by
  simp only [TrackerStore.applyOp, SQLiteStore.applyOp]
  cases hm : m.leavePeer b p with
  | error e =>
      cases hq : q.leavePeer b p with
      | error e' => exact h
      | ok q' =>
          have hrow := (SQLiteStore.leavePeer_ok.mp hq).1.2
          rw [← h.peers] at hrow
          rw [TrackerStore.leavePeer_ok.mpr ⟨hrow, rfl⟩] at hm
          exact absurd hm (by simp)
  | ok m' =>
      obtain ⟨hp, rfl⟩ := TrackerStore.leavePeer_ok.mp hm
      obtain ⟨peerState, hsome⟩ := Option.isSome_iff_exists.mp hp
      obtain ⟨state, hs, -⟩ := TrackerStore.peerState?_eq_some.mp hsome
      have hb : b ∈ q.broadcasts := (h.broadcasts b).mp (OrderedMap.mem_of_get? hs)
      rw [h.peers] at hp
      rw [SQLiteStore.leavePeer_ok.mpr ⟨⟨hb, hp⟩, rfl⟩]
      exact h.update TrackerStore.peerUpdated_retirePeer SQLiteStore.rowsUpdated_retirePeer rfl
        (fun _ hnone => nomatch hnone) (fun _ _ => id)

theorem Agree.applyOp {m : TrackerStore} {q : SQLiteStore} (h : Agree m q) {op : InventoryOp}
    (hsafe : SameOrderOrFits (m, q) op) : Agree (m.applyOp op) (q.applyOp op) := by
  cases op with
  | registerBroadcast t registration => exact h.registerBroadcast t registration
  | joinPeer t b request options => exact h.joinPeer t b request options
  | reportSegments t b p segments replace => exact h.reportSegments t b p segments replace hsafe
  | applySegmentDelta t b p added removed => exact h.applySegmentDelta t b p added removed hsafe
  | leavePeer b p => exact h.leavePeer b p

theorem agree_of_reachable {maxSegmentsPerPeer : ℕ} {s : TrackerStore × SQLiteStore}
    (hr : (storePair maxSegmentsPerPeer).Reachable SameOrderOrFits s) : Agree s.1 s.2 := by
  refine hr.invariant (fun s => Agree s.1 s.2) ?_ ?_
  · rintro s rfl
    exact agree_new maxSegmentsPerPeer
  · rintro s op s' h hsafe hstep
    obtain rfl := Option.some.inj hstep
    exact h.applyOp hsafe

/-- **The stores agree on inventories** after every operation of a run whose
evicting reports find the merged IDs in the same order in both stores. IDs are
well-formed Unicode texts, without lone surrogates. -/
theorem stores_agree_on_inventories {maxSegmentsPerPeer : ℕ} {s : TrackerStore × SQLiteStore}
    (hr : (storePair maxSegmentsPerPeer).Reachable SameOrderOrFits s) :
    SameInventories s.1 s.2 := (agree_of_reachable hr).sameInventories

/-- A peer with room for two IDs reports some lists in turn. -/
def twoSegmentRun (reports : List (List SegmentId × Bool)) : List InventoryOp :=
  [.registerBroadcast 0 ⟨"live", "https://origin/live.m3u8", none⟩,
    .joinPeer 0 "live" ⟨"p", "http://p", none, none⟩ ⟨none⟩] ++
  reports.map fun report => .reportSegments 0 "live" "p" report.1 report.2

/-- The state the two stores reach. -/
def bothStores (maxSegmentsPerPeer : ℕ) (ops : List InventoryOp) : TrackerStore × SQLiteStore :=
  (ops.foldl TrackerStore.applyOp (.new maxSegmentsPerPeer),
    ops.foldl SQLiteStore.applyOp (.new maxSegmentsPerPeer))

/-- Both stores drop the oldest of three IDs reported in order. -/
theorem stores_agree_on_inventories_evicting :
    SameInventories
      (bothStores 2 (twoSegmentRun [(["s1", "s2"], false), (["s3"], false)])).1
      (bothStores 2 (twoSegmentRun [(["s1", "s2"], false), (["s3"], false)])).2 :=
  stores_agree_on_inventories
    ((TransitionSystem.Reachable.init rfl).append_run
      (show (storePair 2).RunOk SameOrderOrFits _
        (twoSegmentRun [(["s1", "s2"], false), (["s3"], false)]) by decide) rfl)

/-- A replacement that lists the same IDs in another order reorders the memory
store only, and the next report evicts a different ID from each store. -/
theorem stores_disagree_after_reordering :
    ¬ ∀ (maxSegmentsPerPeer : ℕ) (s : TrackerStore × SQLiteStore), 0 < maxSegmentsPerPeer →
        (storePair maxSegmentsPerPeer).Reachable (fun _ _ => True) s →
        SameInventories s.1 s.2 := by
  intro h
  have hrun : (storePair 2).run (.new 2, .new 2)
      (twoSegmentRun [(["s1", "s2"], true), (["s2", "s1"], true), (["s3"], false)])
      = some (bothStores 2
          (twoSegmentRun [(["s1", "s2"], true), (["s2", "s1"], true), (["s3"], false)])) := rfl
  have hsame := h 2 _ (by decide) (TransitionSystem.reachable_of_run rfl hrun) "live" "p"
  revert hsame
  decide

end OpenStreamGrid
