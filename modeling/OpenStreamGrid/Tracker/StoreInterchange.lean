import OpenStreamGrid.Tracker.StoreTotals

/-!
# One contract, two stores

`Interchangeable` relates a memory store and a SQLite store that hold the same
broadcasts, peers, counters and retired sums, and have seen the same failure
reports; inventories are left aside. Every call on related stores throws the
same error or returns the same value, and leaves related stores behind.
-/

namespace OpenStreamGrid

/-- A peer without its inventory. -/
def Peer.bare (peer : Peer) : Peer := { peer with segments := [] }

@[simp] theorem bare_mapPeer (p : PeerId) (row : PeerRow) (segments : List SegmentId) :
    (SQLiteStore.mapPeer p row segments).bare = SQLiteStore.mapPeer p row [] := rfl

/-- Both stores hold the same, inventories aside. -/
structure Interchangeable (m : TrackerStore) (q : SQLiteStore) : Prop where
  broadcasts : ∀ b, (m.broadcasts.get? b).map BroadcastState.broadcast = q.broadcasts.get? b
  peers : ∀ b p, (m.getPeer b p).map Peer.bare
    = (q.findPeer b p).map fun row => SQLiteStore.mapPeer p row []
  stats : ∀ b p, m.liveStats b p = q.liveStats b p
  retired : ∀ b, m.retiredSum b = q.retiredSum b
  retiredOwned : ∀ b, b ∈ q.retiredPeerStats → b ∈ q.broadcasts
  failureConsensus : m.failureConsensus = q.failureConsensus

/-! ## Values and answers -/

/-- The same value up to the order of lists, inventories aside. Who is listed by
segment is a question about inventories; a peer both stores list is the same. -/
inductive SameValue : StoreValue → StoreValue → Prop where
  | refl (v : StoreValue) : SameValue v v
  | broadcasts {xs ys : List Broadcast} (h : xs.Perm ys) :
      SameValue (.broadcasts xs) (.broadcasts ys)
  | peer {x y : Peer} (h : x.bare = y.bare) : SameValue (.peer x) (.peer y)
  | joined {x y : Peer} {alreadyJoined : Bool} (h : x.bare = y.bare) :
      SameValue (.joined x alreadyJoined) (.joined y alreadyJoined)
  | found {x y : Option Peer} (h : x.map Peer.bare = y.map Peer.bare) :
      SameValue (.found x) (.found y)
  | peers {xs ys : List Peer} (h : (xs.map Peer.bare).Perm (ys.map Peer.bare)) :
      SameValue (.peers xs) (.peers ys)
  | holders {xs ys : List Peer} (h : ∀ x ∈ xs, ∀ y ∈ ys, x.id = y.id → x.bare = y.bare) :
      SameValue (.holders xs) (.holders ys)
  | snapshots {xs ys : List PeerStatsSnapshot}
      (h : (xs.map fun x => (x.peer.bare, x.stats)).Perm
        (ys.map fun y => (y.peer.bare, y.stats))) :
      SameValue (.snapshots xs) (.snapshots ys)
  | removed {xs ys : List StalePeer} (h : xs.Perm ys) : SameValue (.removed xs) (.removed ys)

/-- The same error, or the same value and interchangeable stores after the call. -/
inductive Answers : Except StoreError (TrackerStore × StoreValue) →
    Except StoreError (SQLiteStore × StoreValue) → Prop where
  | refused (e : StoreError) : Answers (.error e) (.error e)
  | done {m : TrackerStore} {q : SQLiteStore} {v w : StoreValue} (hstores : Interchangeable m q)
      (hvalue : SameValue v w) : Answers (.ok (m, v)) (.ok (q, w))

/-! ## Lookups in related stores -/

namespace Interchangeable

variable {m : TrackerStore} {q : SQLiteStore}

theorem mem_broadcasts (h : Interchangeable m q) (b : BroadcastId) :
    b ∈ m.broadcasts ↔ b ∈ q.broadcasts := by
  rw [OrderedMap.mem_iff_isSome, OrderedMap.mem_iff_isSome, ← h.broadcasts, Option.isSome_map]

theorem isSome_findPeer (h : Interchangeable m q) (b : BroadcastId) (p : PeerId) :
    (m.peerState? b p).isSome = (q.findPeer b p).isSome := by
  have hpeer := congrArg Option.isSome (h.peers b p)
  rw [Option.isSome_map, Option.isSome_map, TrackerStore.getPeer, Option.isSome_map] at hpeer
  exact hpeer

/-- A stored peer as both stores have it. -/
structure Found (m : TrackerStore) (q : SQLiteStore) (b : BroadcastId) (p : PeerId)
    (state : BroadcastState) (peerState : PeerState) (row : PeerRow) : Prop where
  getState : m.broadcasts.get? b = some state
  getPeerState : state.peers.get? p = some peerState
  mem_broadcasts : b ∈ q.broadcasts
  findPeer : q.findPeer b p = some row
  bare : peerState.peer.bare = SQLiteStore.mapPeer p row []
  liveStats : q.liveStats b p = some peerState.stats

theorem found_of_peerState? (h : Interchangeable m q) {b : BroadcastId} {p : PeerId}
    {peerState : PeerState} (hp : m.peerState? b p = some peerState) :
    ∃ state row, Found m q b p state peerState row := by
  obtain ⟨state, hs, hpeer⟩ := TrackerStore.peerState?_eq_some.mp hp
  have hrow := h.peers b p
  rw [TrackerStore.getPeer, hp] at hrow
  obtain ⟨row, hfind, hbare⟩ := Option.map_eq_some_iff.mp hrow.symm
  refine ⟨state, row, hs, hpeer, ?_, hfind, hbare.symm, ?_⟩
  · rw [← h.mem_broadcasts]
    exact OrderedMap.mem_of_get? hs
  · rw [← h.stats, TrackerStore.liveStats, hp]
    rfl

theorem owned (h : Interchangeable m q) : q.Owned := by
  have hpeer : ∀ b p, (q.findPeer b p).isSome → b ∈ q.broadcasts := by
    intro b p hp
    rw [← h.isSome_findPeer] at hp
    obtain ⟨peerState, hp⟩ := Option.isSome_iff_exists.mp hp
    obtain ⟨state, row, hfound⟩ := h.found_of_peerState? hp
    exact hfound.mem_broadcasts
  refine ⟨?_, ?_, h.retiredOwned⟩
  · rintro ⟨b, p⟩ hkey
    exact hpeer b p (OrderedMap.mem_iff_isSome.mp hkey)
  · rintro ⟨b, p⟩ hkey
    have hstats : (q.liveStats b p).isSome := OrderedMap.mem_iff_isSome.mp hkey
    rw [← h.stats, TrackerStore.liveStats, Option.isSome_map, h.isSome_findPeer] at hstats
    exact hpeer b p hstats

/-- A required broadcast is missing in both stores or found in both. -/
theorem requireBroadcast_cases (h : Interchangeable m q) (b : BroadcastId) :
    (m.requireBroadcast b = .error (broadcastNotFound b) ∧
        q.requireBroadcast b = .error (broadcastNotFound b)) ∨
      ∃ state, m.broadcasts.get? b = some state ∧
        m.requireBroadcast b = .ok state ∧ q.requireBroadcast b = .ok state.broadcast := by
  have hb := h.broadcasts b
  unfold TrackerStore.requireBroadcast SQLiteStore.requireBroadcast SQLiteStore.findBroadcast
  rw [← hb]
  cases m.broadcasts.get? b with
  | none => exact Or.inl ⟨rfl, rfl⟩
  | some state => exact Or.inr ⟨state, rfl, rfl, rfl⟩

/-- A required peer is missing in both stores, with the same error however SQLite
looks for it, or found in both. -/
theorem requirePeer_cases (h : Interchangeable m q) (b : BroadcastId) (p : PeerId) :
    (∃ e, m.requirePeer b p = .error e ∧ q.requirePeer b p = .error e ∧
        q.requirePeerRow b p = .error e) ∨
      ∃ state peerState row, Found m q b p state peerState row := by
  cases hp : m.peerState? b p with
  | some peerState =>
      obtain ⟨state, row, hfound⟩ := h.found_of_peerState? hp
      exact Or.inr ⟨state, peerState, row, hfound⟩
  | none =>
      left
      have hrow : q.findPeer b p = none := by
        rw [← Option.not_isSome_iff_eq_none, ← h.isSome_findPeer, hp]
        exact Bool.false_ne_true
      rcases h.requireBroadcast_cases b with ⟨hm, hq⟩ | ⟨state, hs, hm, hq⟩
      · refine ⟨broadcastNotFound b, ?_, ?_, ?_⟩
        · rw [TrackerStore.requirePeer, hm]
        · rw [SQLiteStore.requirePeer, hq]
        · rw [SQLiteStore.requirePeerRow, hrow, hq]
      · have hpeer : state.peers.get? p = none := by
          rw [← hp, TrackerStore.peerState?, hs]
          rfl
        refine ⟨peerNotFound p, ?_, ?_, ?_⟩
        · rw [TrackerStore.requirePeer, hm]
          simp only [hpeer]
        · rw [SQLiteStore.requirePeer, hq]
          simp only [hrow]
        · rw [SQLiteStore.requirePeerRow, hrow, hq]

theorem Found.requirePeer {b : BroadcastId} {p : PeerId} {state : BroadcastState}
    {peerState : PeerState} {row : PeerRow} (hf : Found m q b p state peerState row) :
    m.requirePeer b p = .ok (state, peerState) ∧
      q.requirePeer b p = .ok (SQLiteStore.mapPeer p row (q.getSegments b p)) ∧
      q.requirePeerRow b p = .ok row :=
  ⟨TrackerStore.requirePeer_ok.mpr ⟨hf.getState, hf.getPeerState⟩,
    SQLiteStore.requirePeer_ok.mpr ⟨hf.mem_broadcasts, row, hf.findPeer, rfl⟩,
    SQLiteStore.requirePeerRow_ok.mpr hf.findPeer⟩

theorem new (maxSegmentsPerPeer : ℕ) :
    Interchangeable (.new maxSegmentsPerPeer) (.new maxSegmentsPerPeer) where
  broadcasts := fun _ => rfl
  peers := fun _ _ => rfl
  stats := fun _ _ => rfl
  retired := fun _ => rfl
  retiredOwned := fun _ hb => absurd hb (OrderedMap.not_mem_empty _)
  failureConsensus := rfl

end Interchangeable

/-! ## Writing one peer -/

namespace SQLiteStore

/-- `s'` differs from `s` in the row and the counters of one peer, and perhaps in
its inventory. -/
structure RowWritten (s s' : SQLiteStore) (b : BroadcastId) (p : PeerId) (row : PeerRow)
    (stats : PeerTrafficStats) : Prop where
  broadcasts : s'.broadcasts = s.broadcasts
  findPeer : ∀ b' p', s'.findPeer b' p'
    = if b' = b ∧ p' = p then some row else s.findPeer b' p'
  stats : ∀ b' p', s'.liveStats b' p'
    = if b' = b ∧ p' = p then some stats else s.liveStats b' p'
  retired : s'.retiredPeerStats = s.retiredPeerStats
  failureConsensus : s'.failureConsensus = s.failureConsensus

theorem updatePeer_failureConsensus (s : SQLiteStore) (b : BroadcastId) (p : PeerId)
    (f : PeerRow → PeerRow) : (s.updatePeer b p f).failureConsensus = s.failureConsensus := by
  unfold updatePeer
  cases s.findPeer b p <;> rfl

theorem rowWritten_updatePeer {s : SQLiteStore} {b : BroadcastId} {p : PeerId} {row : PeerRow}
    {stats : PeerTrafficStats} (hrow : s.findPeer b p = some row)
    (hstats : s.liveStats b p = some stats) (f : PeerRow → PeerRow) :
    s.RowWritten (s.updatePeer b p f) b p (f row) stats where
  broadcasts := updatePeer_broadcasts ..
  findPeer := by
    intro b' p'
    rw [findPeer_updatePeer, hrow, Option.map_some]
  stats := by
    intro b' p'
    unfold liveStats
    rw [(updatePeer_stats ..).1]
    split_ifs with hbp
    · rw [hbp.1, hbp.2]
      exact hstats
    · rfl
  retired := (updatePeer_stats ..).2
  failureConsensus := updatePeer_failureConsensus ..

/-- The inventory a report writes is not compared. -/
theorem rowWritten_withSegments {s : SQLiteStore} {b : BroadcastId} {p : PeerId} {row : PeerRow}
    {stats : PeerTrafficStats} (hrow : s.findPeer b p = some row)
    (hstats : s.liveStats b p = some stats) (t : Timestamp) (next : List SegmentId) :
    s.RowWritten (s.withSegments t b p next) b p { row with lastSeenAt := t } stats := by
  have hwritten := rowWritten_updatePeer
    (s := s.writeSegments b p (s.getSegments b p) next) hrow hstats
    fun row => { row with lastSeenAt := t }
  exact ⟨hwritten.broadcasts, hwritten.findPeer, hwritten.stats, hwritten.retired,
    hwritten.failureConsensus⟩

theorem rowWritten_reportStats {s : SQLiteStore} {b : BroadcastId} {p : PeerId} {row : PeerRow}
    (hrow : s.findPeer b p = some row) (stats : PeerTrafficStats) (t : Timestamp) :
    s.RowWritten (updatePeerLastSeen { s with peerStats := s.peerStats.set (b, p) stats } b p t)
      b p { row with lastSeenAt := t } stats := by
  have hset : liveStats { s with peerStats := s.peerStats.set (b, p) stats } b p = some stats := by
    rw [liveStats, OrderedMap.get?_set, if_pos rfl]
  have hwritten := rowWritten_updatePeer
    (s := { s with peerStats := s.peerStats.set (b, p) stats }) hrow hset
    fun row => { row with lastSeenAt := t }
  refine ⟨hwritten.broadcasts, hwritten.findPeer, ?_, hwritten.retired,
    hwritten.failureConsensus⟩
  intro b' p'
  have hstats := hwritten.stats b' p'
  unfold updatePeerLastSeen
  rw [hstats]
  split_ifs with hbp
  · rfl
  · rw [liveStats, OrderedMap.get?_set, if_neg]
    · rfl
    · rintro heq
      exact hbp (Prod.mk.inj heq)

/-- A join writes the bound row: the columns an upsert keeps are bound as they are. -/
theorem rowWritten_join (s : SQLiteStore) (b : BroadcastId) (request : PeerJoinRequest)
    (t : Timestamp) :
    s.RowWritten ((s.upsertPeer b request.id
        (joinRow request (s.findPeer b request.id) t)).insertEmptyPeerStats b request.id)
      b request.id (joinRow request (s.findPeer b request.id) t)
      ((s.liveStats b request.id).getD 0) where
  broadcasts := (insertEmptyPeerStats_tables _ b request.id).2.1
  findPeer := by
    intro b' p'
    rw [findPeer_insertEmptyPeerStats]
    simp only [upsertPeer, findPeer, OrderedMap.get?_set, Prod.mk.injEq]
    split_ifs
    · cases hrow : s.peers.get? (b, request.id) <;> rfl
    · rfl
  stats := fun b' p' => liveStats_insertEmptyPeerStats _ b b' request.id p'
  retired := (insertEmptyPeerStats_tables _ b request.id).2.2.2.1
  failureConsensus := by
    unfold insertEmptyPeerStats
    split_ifs <;> rfl

end SQLiteStore

namespace Interchangeable

variable {m : TrackerStore} {q q' : SQLiteStore}

/-- Both stores write the same peer. -/
theorem write (h : Interchangeable m q) {b : BroadcastId} {p : PeerId} {state : BroadcastState}
    {new : PeerState} {row : PeerRow} (hs : m.broadcasts.get? b = some state)
    (hq : q.RowWritten q' b p row new.stats)
    (hpeer : new.peer.bare = SQLiteStore.mapPeer p row []) :
    Interchangeable (m.setPeer b state p new) q' where
  broadcasts := by
    intro b'
    rw [hq.broadcasts, ← h.broadcasts, TrackerStore.setPeer_broadcasts_get?]
    split_ifs with hb
    · rw [hb, hs]
      rfl
    · rfl
  peers := by
    intro b' p'
    rw [TrackerStore.getPeer, TrackerStore.peerState?_setPeer hs, hq.findPeer]
    split_ifs with hbp
    · rw [Option.map_some, Option.map_some, Option.map_some, hpeer, hbp.2]
    · exact h.peers b' p'
  stats := by
    intro b' p'
    rw [TrackerStore.liveStats, TrackerStore.peerState?_setPeer hs, hq.stats]
    split_ifs
    · rfl
    · exact h.stats b' p'
  retired := by
    intro b'
    rw [TrackerStore.retiredSum_setPeer hs, h.retired, SQLiteStore.retiredSum, ← hq.retired]
    rfl
  retiredOwned := by
    intro b' hb'
    rw [hq.broadcasts]
    rw [hq.retired] at hb'
    exact h.retiredOwned b' hb'
  failureConsensus := h.failureConsensus.trans hq.failureConsensus.symm

theorem withConsensus (h : Interchangeable m q) (failureConsensus : PeerFailureConsensus) :
    Interchangeable { m with failureConsensus } { q with failureConsensus } :=
  ⟨h.broadcasts, h.peers, h.stats, h.retired, h.retiredOwned, rfl⟩

end Interchangeable

/-! ## Retiring peers -/

namespace TrackerStore

theorem broadcast_retirePeer (s : TrackerStore) (b b' : BroadcastId) (p : PeerId) :
    ((s.retirePeer b p).broadcasts.get? b').map BroadcastState.broadcast
      = (s.broadcasts.get? b').map BroadcastState.broadcast := by
  cases hp : s.peerState? b p with
  | none => rw [retirePeer_eq_self hp]
  | some peerState =>
      obtain ⟨state, hs, hpeer⟩ := peerState?_eq_some.mp hp
      rw [retirePeer_eq hs hpeer, OrderedMap.get?_set]
      split_ifs with hb
      · rw [hb, hs]
        rfl
      · rfl

theorem failureConsensus_retirePeer (s : TrackerStore) (b : BroadcastId) (p : PeerId) :
    (s.retirePeer b p).failureConsensus = s.failureConsensus := by
  unfold retirePeer
  cases s.requirePeer b p <;> rfl

theorem liveStats_retirePeer (s : TrackerStore) (b b' : BroadcastId) (p p' : PeerId) :
    (s.retirePeer b p).liveStats b' p'
      = if b' = b ∧ p' = p then none else s.liveStats b' p' := by
  rw [liveStats, peerState?_retirePeer]
  split_ifs <;> rfl

/-- The counters of a peer that is stored go to its broadcast's retired sum. -/
theorem retiredSum_retirePeer (s : TrackerStore) (b b' : BroadcastId) (p : PeerId) :
    (s.retirePeer b p).retiredSum b'
      = if b' = b then s.retiredSum b' + (s.liveStats b p).getD 0 else s.retiredSum b' := by
  cases hp : s.liveStats b p with
  | some v => exact (retire_accounts hp).2 b'
  | none =>
      rw [retirePeer_eq_self (Option.map_eq_none_iff.mp hp)]
      simp

/-- The retired sums after retiring distinct peers depend only on who they are. -/
theorem retiredSum_retirePeers (b : BroadcastId) : ∀ {stale : List StalePeer} (s : TrackerStore),
    stale.Nodup → (s.retirePeers stale).retiredSum b = s.retiredSum b
      + ((stale.filter fun x => decide (x.broadcastId = b)).map fun x =>
          (s.liveStats x.broadcastId x.peerId).getD 0).sum := by
  intro stale
  induction stale with
  | nil => intro s _; simp [retirePeers]
  | cons x rest ih =>
      intro s hnodup
      obtain ⟨hx, hrest⟩ := List.nodup_cons.mp hnodup
      change ((s.retirePeer x.broadcastId x.peerId).retirePeers rest).retiredSum b = _
      -- The others' counters are still where they were.
      have hothers : ∀ y ∈ rest.filter fun y => decide (y.broadcastId = b),
          ((s.retirePeer x.broadcastId x.peerId).liveStats y.broadcastId y.peerId).getD 0
            = (s.liveStats y.broadcastId y.peerId).getD 0 := by
        intro y hy
        rw [liveStats_retirePeer, if_neg]
        rintro ⟨hb, hp⟩
        have hyx : y = x := by
          cases y
          cases x
          exact congrArg₂ StalePeer.mk hb hp
        exact hx (hyx ▸ (List.mem_filter.mp hy).1)
      rw [ih _ hrest, retiredSum_retirePeer, List.map_congr_left hothers]
      by_cases hb : b = x.broadcastId
      · rw [if_pos hb, List.filter_cons_of_pos (by simpa using hb.symm), List.map_cons,
          List.sum_cons, add_assoc]
      · rw [if_neg hb, List.filter_cons_of_neg (by simpa using Ne.symm hb)]

theorem broadcast_retirePeers (b : BroadcastId) : ∀ (stale : List StalePeer) (s : TrackerStore),
    ((s.retirePeers stale).broadcasts.get? b).map BroadcastState.broadcast
      = (s.broadcasts.get? b).map BroadcastState.broadcast := by
  intro stale
  induction stale with
  | nil => intro s; rfl
  | cons x rest ih => intro s; exact (ih _).trans (broadcast_retirePeer s _ b _)

theorem failureConsensus_retirePeers : ∀ (stale : List StalePeer) (s : TrackerStore),
    (s.retirePeers stale).failureConsensus = s.failureConsensus := by
  intro stale
  induction stale with
  | nil => intro s; rfl
  | cons x rest ih => intro s; exact (ih _).trans (failureConsensus_retirePeer s _ _)

end TrackerStore

namespace SQLiteStore

theorem liveStats_retirePeer (s : SQLiteStore) (b b' : BroadcastId) (p p' : PeerId) :
    (s.retirePeer b p).liveStats b' p'
      = if b' = b ∧ p' = p then none else s.liveStats b' p' := by
  simp only [liveStats, retirePeer, deletePeer, deletePeerSegments, deletePeerStats,
    (accumulateRetiredStats_tables s b p).2.2.2.1, OrderedMap.get?_delete, Prod.mk.injEq]

theorem retiredPeerStats_retirePeer (s : SQLiteStore) (b : BroadcastId) (p : PeerId) :
    (s.retirePeer b p).retiredPeerStats = (s.accumulateRetiredStats b p).retiredPeerStats := rfl

theorem retiredSum_retirePeer (s : SQLiteStore) (b b' : BroadcastId) (p : PeerId) :
    (s.retirePeer b p).retiredSum b'
      = if b' = b then s.retiredSum b' + (s.liveStats b p).getD 0 else s.retiredSum b' := by
  cases hp : s.liveStats b p with
  | some v => exact (retire_accounts hp).2 b'
  | none =>
      have hnone : s.peerStats.get? (b, p) = none := hp
      rw [retiredSum, retiredPeerStats_retirePeer, accumulateRetiredStats, hnone]
      simp [retiredSum]

/-- Only a broadcast of a peer with counters gets a retired row. -/
theorem mem_retiredPeerStats_retirePeer {s : SQLiteStore} {b b' : BroadcastId} {p : PeerId}
    (h : b' ∈ (s.retirePeer b p).retiredPeerStats) :
    b' ∈ s.retiredPeerStats ∨ b' = b ∧ (b, p) ∈ s.peerStats := by
  rw [retiredPeerStats_retirePeer, accumulateRetiredStats] at h
  cases hp : s.peerStats.get? (b, p) with
  | none =>
      rw [hp] at h
      exact Or.inl h
  | some v =>
      simp only [hp, OrderedMap.mem_set] at h
      rcases h with h | h
      · exact Or.inl h
      · exact Or.inr ⟨h, OrderedMap.mem_of_get? hp⟩

theorem failureConsensus_retirePeer (s : SQLiteStore) (b : BroadcastId) (p : PeerId) :
    (s.retirePeer b p).failureConsensus = s.failureConsensus := by
  change (s.accumulateRetiredStats b p).failureConsensus = _
  unfold accumulateRetiredStats
  cases s.peerStats.get? (b, p) <;> rfl

/-- Retire a list of peers, one after another. -/
def retirePeers (s : SQLiteStore) (stale : List StalePeer) : SQLiteStore :=
  stale.foldl (fun s x => s.retirePeer x.broadcastId x.peerId) s

theorem mem_listStalePeers_iff {s : SQLiteStore} {cutoff : Timestamp} {x : StalePeer} :
    x ∈ s.listStalePeers cutoff ↔
      ∃ row, s.findPeer x.broadcastId x.peerId = some row ∧ row.lastSeenAt < cutoff := by
  unfold listStalePeers findPeer
  rw [(List.perm_insertionSort _ _).mem_iff, List.mem_map]
  constructor
  · rintro ⟨⟨⟨b, p⟩, row⟩, hmem, rfl⟩
    obtain ⟨hentry, hold⟩ := List.mem_filter.mp hmem
    exact ⟨row, OrderedMap.get?_eq_some_iff.mpr hentry, by simpa using hold⟩
  · rintro ⟨row, hrow, hold⟩
    refine ⟨((x.broadcastId, x.peerId), row), List.mem_filter.mpr ⟨?_, by simpa using hold⟩, rfl⟩
    exact OrderedMap.get?_eq_some_iff.mp hrow

end SQLiteStore

namespace Interchangeable

variable {m m' : TrackerStore} {q : SQLiteStore}

theorem retirePeer (h : Interchangeable m q) (b : BroadcastId) (p : PeerId) :
    Interchangeable (m.retirePeer b p) (q.retirePeer b p) where
  broadcasts := by
    intro b'
    rw [TrackerStore.broadcast_retirePeer, SQLiteStore.retirePeer_broadcasts]
    exact h.broadcasts b'
  peers := by
    intro b' p'
    rw [TrackerStore.getPeer, TrackerStore.peerState?_retirePeer,
      SQLiteStore.findPeer_retirePeer]
    split_ifs
    · rfl
    · exact h.peers b' p'
  stats := by
    intro b' p'
    rw [TrackerStore.liveStats_retirePeer, SQLiteStore.liveStats_retirePeer, h.stats]
  retired := by
    intro b'
    rw [TrackerStore.retiredSum_retirePeer, SQLiteStore.retiredSum_retirePeer, h.retired, h.stats]
  retiredOwned := by
    intro b' hb'
    rw [SQLiteStore.retirePeer_broadcasts]
    rcases SQLiteStore.mem_retiredPeerStats_retirePeer hb' with hold | ⟨rfl, hstats⟩
    · exact h.retiredOwned b' hold
    · exact h.owned.peerStats _ hstats
  failureConsensus := by
    rw [TrackerStore.failureConsensus_retirePeer, SQLiteStore.failureConsensus_retirePeer]
    exact h.failureConsensus

theorem retirePeers : ∀ {stale : List StalePeer} {m : TrackerStore} {q : SQLiteStore},
    Interchangeable m q → Interchangeable (m.retirePeers stale) (q.retirePeers stale) := by
  intro stale
  induction stale with
  | nil => intro m q h; exact h
  | cons x rest ih => intro m q h; exact ih (h.retirePeer x.broadcastId x.peerId)

/-- A sweep finds the same stale peers in both stores. -/
theorem stalePeers_perm (h : Interchangeable m q) (cutoff : Timestamp) :
    (m.stalePeers cutoff).Perm (q.listStalePeers cutoff) := by
  refine (List.perm_ext_iff_of_nodup (m.nodup_stalePeers cutoff)
    (q.nodup_listStalePeers cutoff)).mpr fun x => ?_
  rw [TrackerStore.mem_stalePeers, SQLiteStore.mem_listStalePeers_iff]
  have hpeer := h.peers x.broadcastId x.peerId
  rw [TrackerStore.getPeer, Option.map_map] at hpeer
  constructor
  · rintro ⟨peerState, hp, hold⟩
    rw [hp] at hpeer
    obtain ⟨row, hrow, hbare⟩ := Option.map_eq_some_iff.mp hpeer.symm
    have hseen : row.lastSeenAt = peerState.peer.lastSeenAt := congrArg Peer.lastSeenAt hbare
    exact ⟨row, hrow, hseen ▸ hold⟩
  · rintro ⟨row, hrow, hold⟩
    rw [hrow] at hpeer
    obtain ⟨peerState, hp, hbare⟩ := Option.map_eq_some_iff.mp hpeer
    have hseen : peerState.peer.lastSeenAt = row.lastSeenAt := congrArg Peer.lastSeenAt hbare
    exact ⟨peerState, hp, hseen ▸ hold⟩

/-- The order in which a sweep retires is not seen. -/
theorem retirePeers_perm {stale stale' : List StalePeer} (h : stale.Perm stale')
    (hnodup : stale.Nodup) (hrel : Interchangeable (m.retirePeers stale') q) :
    Interchangeable (m.retirePeers stale) q where
  broadcasts := by
    intro b
    rw [← hrel.broadcasts, TrackerStore.broadcast_retirePeers, TrackerStore.broadcast_retirePeers]
  peers := by
    intro b p
    rw [← hrel.peers, TrackerStore.getPeer, TrackerStore.getPeer,
      TrackerStore.peerState?_retirePeers, TrackerStore.peerState?_retirePeers]
    simp only [h.mem_iff]
  stats := by
    intro b p
    rw [← hrel.stats, TrackerStore.liveStats, TrackerStore.liveStats,
      TrackerStore.peerState?_retirePeers, TrackerStore.peerState?_retirePeers]
    simp only [h.mem_iff]
  retired := by
    intro b
    rw [← hrel.retired, TrackerStore.retiredSum_retirePeers b m hnodup,
      TrackerStore.retiredSum_retirePeers b m (h.nodup_iff.mp hnodup)]
    congr 1
    exact ((h.filter _).map _).sum_eq
  retiredOwned := hrel.retiredOwned
  failureConsensus := by
    rw [← hrel.failureConsensus, TrackerStore.failureConsensus_retirePeers,
      TrackerStore.failureConsensus_retirePeers]

end Interchangeable

end OpenStreamGrid
