import OpenStreamGrid.Tracker.StoreInterchange
import OpenStreamGrid.Tracker.StoreParts

/-!
# The SQLite store keeps broadcasts apart

A peer's record is the rows of one key in three tables. `SameRows P` says that
two stores have the same rows at the keys with `P`: a statement about another key
keeps it, and so does the same statement made on both sides.
-/

namespace OpenStreamGrid

namespace SQLiteStore

variable {P : BroadcastId × PeerId → Prop} [DecidablePred P] {s s' s'' : SQLiteStore}
  {b : BroadcastId} {p : PeerId}

/-- The same rows at the keys with `P`. -/
structure SameRows (P : BroadcastId × PeerId → Prop) [DecidablePred P] (s s' : SQLiteStore) :
    Prop where
  peers : s.peers.restrict P = s'.peers.restrict P
  segments : s.peerSegments.restrict (fun row => P (row.broadcastId, row.peerId))
    = s'.peerSegments.restrict fun row => P (row.broadcastId, row.peerId)
  stats : s.peerStats.restrict P = s'.peerStats.restrict P

namespace SameRows

theorem refl (s : SQLiteStore) : SameRows P s s := ⟨rfl, rfl, rfl⟩

theorem symm (h : SameRows P s s') : SameRows P s' s :=
  ⟨h.peers.symm, h.segments.symm, h.stats.symm⟩

theorem trans (h : SameRows P s s') (h' : SameRows P s' s'') : SameRows P s s'' :=
  ⟨h.peers.trans h'.peers, h.segments.trans h'.segments, h.stats.trans h'.stats⟩

/-! ### What is read of the rows -/

theorem findPeer (h : SameRows P s s') (hP : P (b, p)) : s.findPeer b p = s'.findPeer b p :=
  OrderedMap.get?_congr h.peers hP

theorem liveStats (h : SameRows P s s') (hP : P (b, p)) : s.liveStats b p = s'.liveStats b p :=
  OrderedMap.get?_congr h.stats hP

theorem getSegments (h : SameRows P s s') (hP : P (b, p)) :
    s.getSegments b p = s'.getSegments b p := by
  have hread : ∀ s : SQLiteStore, s.getSegments b p
      = ((s.peerSegments.restrict fun row => P (row.broadcastId, row.peerId)).toList.filter
          fun row => decide (row.broadcastId = b ∧ row.peerId = p)).map
            PeerSegmentRow.segmentName := by
    intro s
    rw [OrderedSet.filter_toList_restrict]
    · rfl
    · rintro row ⟨hb, hp⟩
      rw [hb, hp]
      exact hP
  rw [hread, hread, h.segments]

theorem getPeer (h : SameRows P s s') (hP : P (b, p)) : s.getPeer b p = s'.getPeer b p := by
  unfold SQLiteStore.getPeer
  rw [h.findPeer hP, h.getSegments hP]

/-! ### The same statement on both sides -/

theorem updatePeer (h : SameRows P s s') (hP : P (b, p)) (f : PeerRow → PeerRow) :
    SameRows P (s.updatePeer b p f) (s'.updatePeer b p f) := by
  unfold SQLiteStore.updatePeer
  rw [h.findPeer hP]
  cases s'.findPeer b p with
  | none => exact h
  | some row => exact ⟨OrderedMap.restrict_set_congr h.peers (b, p) (f row), h.segments, h.stats⟩

theorem writeSegments (h : SameRows P s s') (existing next : List SegmentId) :
    SameRows P (s.writeSegments b p existing next) (s'.writeSegments b p existing next) :=
  ⟨h.peers, OrderedSet.restrict_insertAll_congr _ (OrderedSet.restrict_eraseAll_congr _ h.segments),
    h.stats⟩

theorem withSegments (h : SameRows P s s') (hP : P (b, p)) (t : Timestamp)
    (next : List SegmentId) :
    SameRows P (s.withSegments t b p next) (s'.withSegments t b p next) := by
  unfold SQLiteStore.withSegments
  rw [h.getSegments hP]
  exact (h.writeSegments _ next).updatePeer hP _

theorem upsertPeer (h : SameRows P s s') (hP : P (b, p)) (row : PeerRow) :
    SameRows P (s.upsertPeer b p row) (s'.upsertPeer b p row) := by
  unfold SQLiteStore.upsertPeer
  rw [h.findPeer hP]
  exact ⟨OrderedMap.restrict_set_congr h.peers (b, p) _, h.segments, h.stats⟩

theorem insertEmptyPeerStats (h : SameRows P s s') (hP : P (b, p)) :
    SameRows P (s.insertEmptyPeerStats b p) (s'.insertEmptyPeerStats b p) := by
  have hmem : (b, p) ∈ s.peerStats ↔ (b, p) ∈ s'.peerStats := by
    rw [OrderedMap.mem_iff_isSome, OrderedMap.mem_iff_isSome, OrderedMap.get?_congr h.stats hP]
  unfold SQLiteStore.insertEmptyPeerStats
  simp only [hmem]
  split_ifs
  · exact h
  · exact ⟨h.peers, h.segments, OrderedMap.restrict_set_congr h.stats (b, p) _⟩

theorem setStats (h : SameRows P s s') (stats : PeerTrafficStats) :
    SameRows P { s with peerStats := s.peerStats.set (b, p) stats }
      { s' with peerStats := s'.peerStats.set (b, p) stats } :=
  ⟨h.peers, h.segments, OrderedMap.restrict_set_congr h.stats (b, p) stats⟩

end SameRows

theorem rows_accumulateRetiredStats (s : SQLiteStore) (b : BroadcastId) (p : PeerId) :
    SameRows P (s.accumulateRetiredStats b p) s := by
  obtain ⟨hpeers, -, hsegments, hstats, -⟩ := accumulateRetiredStats_tables s b p
  refine ⟨?_, ?_, ?_⟩
  · rw [hpeers]
  · rw [hsegments]
  · rw [hstats]

theorem SameRows.retirePeer (h : SameRows P s s') (hP : P (b, p)) :
    SameRows P (s.retirePeer b p) (s'.retirePeer b p) := by
  have hrows : SameRows P (s.accumulateRetiredStats b p) (s'.accumulateRetiredStats b p) :=
    (rows_accumulateRetiredStats s b p).trans (h.trans (rows_accumulateRetiredStats s' b p).symm)
  have hlist : ∀ t : SQLiteStore, t.peerSegments.toList.filter
      (fun row => decide (row.broadcastId = b ∧ row.peerId = p))
      = (t.peerSegments.restrict fun row => P (row.broadcastId, row.peerId)).toList.filter
          fun row => decide (row.broadcastId = b ∧ row.peerId = p) := by
    intro t
    rw [OrderedSet.filter_toList_restrict]
    rintro row ⟨hb, hp⟩
    rw [hb, hp]
    exact hP
  refine ⟨OrderedMap.restrict_delete_congr hrows.peers (b, p), ?_,
    OrderedMap.restrict_delete_congr hrows.stats (b, p)⟩
  show ((s.accumulateRetiredStats b p).peerSegments.eraseAll _).restrict _
    = ((s'.accumulateRetiredStats b p).peerSegments.eraseAll _).restrict _
  have hrow := hlist (s.accumulateRetiredStats b p)
  rw [hrows.segments, ← hlist (s'.accumulateRetiredStats b p)] at hrow
  refine (congrArg (fun rows => ((s.accumulateRetiredStats b p).peerSegments.eraseAll rows).restrict
    fun row => P (row.broadcastId, row.peerId)) hrow).trans ?_
  exact OrderedSet.restrict_eraseAll_congr _ hrows.segments

/-! ## Statements about one key -/

/-- `s'` differs from `s` in the rows of one key, and in what its broadcast shares. -/
structure Touches (b : BroadcastId) (p : PeerId) (s s' : SQLiteStore) : Prop where
  broadcasts : s'.broadcasts = s.broadcasts
  rows : ∀ (P : BroadcastId × PeerId → Prop) [DecidablePred P], ¬ P (b, p) → SameRows P s' s
  retired : ∀ b', b' ≠ b → s'.retiredPeerStats.get? b' = s.retiredPeerStats.get? b'
  failureConsensus : PlainId p → ∀ b', b' ≠ b →
    s'.failureConsensus.SameOn b' s.failureConsensus
  maxSegmentsPerPeer : s'.maxSegmentsPerPeer = s.maxSegmentsPerPeer

namespace Touches

theorem trans (h : Touches b p s s') (h' : Touches b p s' s'') : Touches b p s s'' where
  broadcasts := h'.broadcasts.trans h.broadcasts
  rows := fun P _ hP => (h'.rows P hP).trans (h.rows P hP)
  retired := fun b' hb => (h'.retired b' hb).trans (h.retired b' hb)
  failureConsensus := fun hp b' hb =>
    (h'.failureConsensus hp b' hb).trans (h.failureConsensus hp b' hb)
  maxSegmentsPerPeer := h'.maxSegmentsPerPeer.trans h.maxSegmentsPerPeer

theorem updatePeer (s : SQLiteStore) (b : BroadcastId) (p : PeerId) (f : PeerRow → PeerRow) :
    Touches b p s (s.updatePeer b p f) := by
  unfold SQLiteStore.updatePeer
  cases s.findPeer b p with
  | none => exact ⟨rfl, fun _ _ _ => .refl s, fun _ _ => rfl, fun _ _ _ => .refl _, rfl⟩
  | some row =>
      refine ⟨rfl, fun P _ hP => ⟨?_, rfl, rfl⟩, fun _ _ => rfl, fun _ _ _ => .refl _, rfl⟩
      rw [OrderedMap.restrict_set, if_neg hP]

theorem writeSegments (s : SQLiteStore) (b : BroadcastId) (p : PeerId)
    (existing next : List SegmentId) : Touches b p s (s.writeSegments b p existing next) := by
  refine ⟨rfl, fun P _ hP => ⟨rfl, ?_, rfl⟩, fun _ _ => rfl, fun _ _ _ => .refl _, rfl⟩
  have hrow : ∀ names : List SegmentId, ∀ row ∈ names.map (PeerSegmentRow.mk b p),
      ¬ P (row.broadcastId, row.peerId) := by
    intro names row hmem
    obtain ⟨name, -, rfl⟩ := List.mem_map.mp hmem
    exact hP
  exact (OrderedSet.restrict_insertAll_of_not (hrow _)).trans
    (OrderedSet.restrict_eraseAll_of_not (hrow _))

theorem withSegments (s : SQLiteStore) (t : Timestamp) (b : BroadcastId) (p : PeerId)
    (next : List SegmentId) : Touches b p s (s.withSegments t b p next) :=
  (writeSegments s b p _ next).trans (updatePeer _ b p _)

theorem setStats (s : SQLiteStore) (b : BroadcastId) (p : PeerId) (stats : PeerTrafficStats) :
    Touches b p s { s with peerStats := s.peerStats.set (b, p) stats } := by
  refine ⟨rfl, fun P _ hP => ⟨rfl, rfl, ?_⟩, fun _ _ => rfl, fun _ _ _ => .refl _, rfl⟩
  rw [OrderedMap.restrict_set, if_neg hP]

theorem join (s : SQLiteStore) (b : BroadcastId) (p : PeerId) (row : PeerRow) :
    Touches b p s ((s.upsertPeer b p row).insertEmptyPeerStats b p) := by
  have hupsert : Touches b p s (s.upsertPeer b p row) := by
    refine ⟨rfl, fun P _ hP => ⟨?_, rfl, rfl⟩, fun _ _ => rfl, fun _ _ _ => .refl _, rfl⟩
    unfold upsertPeer
    rw [OrderedMap.restrict_set, if_neg hP]
  refine hupsert.trans ?_
  unfold insertEmptyPeerStats
  split_ifs
  · exact ⟨rfl, fun _ _ _ => .refl _, fun _ _ => rfl, fun _ _ _ => .refl _, rfl⟩
  · exact setStats _ b p _

theorem retirePeer (s : SQLiteStore) (b : BroadcastId) (p : PeerId) :
    Touches b p s (s.retirePeer b p) where
  broadcasts := retirePeer_broadcasts s b p
  rows := by
    intro P _ hP
    have hdeleted : SameRows P (s.retirePeer b p) (s.accumulateRetiredStats b p) := by
      refine ⟨OrderedMap.restrict_delete_of_not hP, ?_, OrderedMap.restrict_delete_of_not hP⟩
      refine OrderedSet.restrict_eraseAll_of_not fun row hmem hrow => hP ?_
      obtain ⟨-, hkey⟩ := List.mem_filter.mp hmem
      obtain ⟨hb, hp⟩ := of_decide_eq_true hkey
      rwa [hb, hp] at hrow
    exact hdeleted.trans (rows_accumulateRetiredStats s b p)
  retired := by
    intro b' hb
    rw [retiredPeerStats_retirePeer, accumulateRetiredStats]
    cases s.peerStats.get? (b, p) with
    | none => rfl
    | some stats => exact (OrderedMap.get?_set ..).trans (if_neg hb)
  failureConsensus := by
    intro _ b' _
    rw [failureConsensus_retirePeer]
    exact .refl _
  maxSegmentsPerPeer := retirePeer_maxSegmentsPerPeer s b p

end Touches

/-! ## Parts of the store -/

/-- Two stores hold the same of a broadcast. -/
structure SameOf (b : BroadcastId) (s s' : SQLiteStore) : Prop where
  broadcast : s.broadcasts.get? b = s'.broadcasts.get? b
  rows : SameRows (fun key => key.1 = b) s s'
  retired : s.retiredPeerStats.get? b = s'.retiredPeerStats.get? b
  failureConsensus : s.failureConsensus.SameOn b s'.failureConsensus
  maxSegmentsPerPeer : s.maxSegmentsPerPeer = s'.maxSegmentsPerPeer

def parts : StoreParts SQLiteStore where
  record s b p := (s.getPeer b p).map fun peer => ⟨peer, (s.liveStats b p).getD 0⟩
  SameOf := SameOf

theorem isSome_record {s : SQLiteStore} {b : BroadcastId} {p : PeerId} :
    (parts.record s b p).isSome = (s.findPeer b p).isSome := by
  show ((s.getPeer b p).map _).isSome = _
  rw [Option.isSome_map, SQLiteStore.getPeer, Option.isSome_map]

theorem record_congr (h : SameRows P s s') (hP : P (b, p)) :
    parts.record s b p = parts.record s' b p := by
  show (s.getPeer b p).map _ = (s'.getPeer b p).map _
  rw [h.getPeer hP, h.liveStats hP]

namespace Touches

variable {b' : BroadcastId} {p' : PeerId}

theorem apart (h : Touches b p s s')
    (hp : PlainId p ∨ s'.failureConsensus = s.failureConsensus) (hb : b' ≠ b) :
    SameOf b' s' s where
  broadcast := by rw [h.broadcasts]
  rows := h.rows (fun key => key.1 = b') fun heq => hb heq.symm
  retired := h.retired b' hb
  failureConsensus := by
    rcases hp with hp | hkept
    · exact h.failureConsensus hp b' hb
    · rw [hkept]
      exact .refl _
  maxSegmentsPerPeer := h.maxSegmentsPerPeer

theorem others (h : Touches b p s s') (hne : ¬ (b' = b ∧ p' = p)) :
    parts.record s' b' p' = parts.record s b' p' := by
  refine record_congr (h.rows (fun key => key = (b', p')) ?_) rfl
  intro heq
  obtain ⟨rfl, rfl⟩ := Prod.mk.inj heq
  exact hne ⟨rfl, rfl⟩

end Touches

namespace SameOf

theorem refl (b : BroadcastId) (s : SQLiteStore) : SameOf b s s :=
  ⟨rfl, .refl s, rfl, .refl _, rfl⟩

theorem requireBroadcast (h : SameOf b s s') : s.requireBroadcast b = s'.requireBroadcast b := by
  unfold SQLiteStore.requireBroadcast findBroadcast
  rw [h.broadcast]

theorem findPeer (h : SameOf b s s') (p : PeerId) : s.findPeer b p = s'.findPeer b p :=
  h.rows.findPeer rfl

theorem getSegments (h : SameOf b s s') (p : PeerId) : s.getSegments b p = s'.getSegments b p :=
  h.rows.getSegments rfl

theorem requirePeerRow (h : SameOf b s s') (p : PeerId) :
    s.requirePeerRow b p = s'.requirePeerRow b p := by
  unfold SQLiteStore.requirePeerRow
  rw [h.findPeer p, h.requireBroadcast]

theorem requirePeer (h : SameOf b s s') (p : PeerId) : s.requirePeer b p = s'.requirePeer b p := by
  unfold SQLiteStore.requirePeer
  rw [h.requireBroadcast, h.findPeer p, h.getSegments p]

theorem countPeers (h : SameOf b s s') : s.countPeers b = s'.countPeers b := by
  have hcount : ∀ t : SQLiteStore, t.countPeers b
      = (t.peers.restrict fun key => key.1 = b).size := by
    intro t
    unfold SQLiteStore.countPeers OrderedMap.keys
    rw [List.countP_map, List.countP_eq_length_filter]
    rfl
  rw [hcount, hcount, h.rows.peers]

theorem listPeers (h : SameOf b s s') (segment : Option SegmentId) :
    s.listPeers b segment = s'.listPeers b segment := by
  have hrows : s.peers.entries.filter (fun e => decide (e.1.1 = b))
      = s'.peers.entries.filter fun e => decide (e.1.1 = b) :=
    congrArg OrderedMap.entries h.rows.peers
  have hpeers : (s.peers.entries.filter fun e => decide (e.1.1 = b)).map
        (fun e => mapPeer e.1.2 e.2 (s.getSegments b e.1.2))
      = (s'.peers.entries.filter fun e => decide (e.1.1 = b)).map
        fun e => mapPeer e.1.2 e.2 (s'.getSegments b e.1.2) := by
    rw [hrows]
    exact List.map_congr_left fun e _ => by rw [h.getSegments]
  unfold SQLiteStore.listPeers
  rw [h.requireBroadcast, hpeers]

/-- The broadcast's other columns are compared as they are. -/
theorem of_rows (h : SameOf b s s') {t t' : SQLiteStore}
    (hrows : SameRows (fun key => key.1 = b) t t') (hs : t.broadcasts = s.broadcasts)
    (hs' : t'.broadcasts = s'.broadcasts) (hretired : t.retiredPeerStats = s.retiredPeerStats)
    (hretired' : t'.retiredPeerStats = s'.retiredPeerStats)
    (hconsensus : t.failureConsensus = s.failureConsensus)
    (hconsensus' : t'.failureConsensus = s'.failureConsensus)
    (hlimit : t.maxSegmentsPerPeer = s.maxSegmentsPerPeer)
    (hlimit' : t'.maxSegmentsPerPeer = s'.maxSegmentsPerPeer) : SameOf b t t' where
  broadcast := by rw [hs, hs', h.broadcast]
  rows := hrows
  retired := by rw [hretired, hretired', h.retired]
  failureConsensus := by
    rw [hconsensus, hconsensus']
    exact h.failureConsensus
  maxSegmentsPerPeer := by rw [hlimit, hlimit', h.maxSegmentsPerPeer]

theorem updatePeer (h : SameOf b s s') (p : PeerId) (f : PeerRow → PeerRow) :
    SameOf b (s.updatePeer b p f) (s'.updatePeer b p f) :=
  h.of_rows (h.rows.updatePeer rfl f) (updatePeer_broadcasts ..) (updatePeer_broadcasts ..)
    (updatePeer_stats ..).2 (updatePeer_stats ..).2 (updatePeer_failureConsensus ..)
    (updatePeer_failureConsensus ..) (updatePeer_maxSegmentsPerPeer ..)
    (updatePeer_maxSegmentsPerPeer ..)

theorem withSegments (h : SameOf b s s') (t : Timestamp) (p : PeerId) (next : List SegmentId) :
    SameOf b (s.withSegments t b p next) (s'.withSegments t b p next) := by
  unfold SQLiteStore.withSegments
  rw [h.getSegments p]
  have hwritten : SameOf b (s.writeSegments b p (s'.getSegments b p) next)
      (s'.writeSegments b p (s'.getSegments b p) next) :=
    ⟨h.broadcast, h.rows.writeSegments _ next, h.retired, h.failureConsensus,
      h.maxSegmentsPerPeer⟩
  exact hwritten.updatePeer p _

theorem join (h : SameOf b s s') (p : PeerId) (row : PeerRow) :
    SameOf b ((s.upsertPeer b p row).insertEmptyPeerStats b p)
      ((s'.upsertPeer b p row).insertEmptyPeerStats b p) := by
  have hconsensus : ∀ t : SQLiteStore, ((t.upsertPeer b p row).insertEmptyPeerStats b
      p).failureConsensus = t.failureConsensus := by
    intro t
    unfold insertEmptyPeerStats
    split_ifs <;> rfl
  obtain ⟨-, hs, -, hretired, hlimit⟩ := insertEmptyPeerStats_tables (s.upsertPeer b p row) b p
  obtain ⟨-, hs', -, hretired', hlimit'⟩ := insertEmptyPeerStats_tables (s'.upsertPeer b p row) b p
  exact h.of_rows ((h.rows.upsertPeer rfl row).insertEmptyPeerStats rfl) hs hs' hretired hretired'
    (hconsensus s) (hconsensus s') hlimit hlimit'

theorem retirePeer (h : SameOf b s s') (p : PeerId) :
    SameOf b (s.retirePeer b p) (s'.retirePeer b p) where
  broadcast := by rw [retirePeer_broadcasts, retirePeer_broadcasts, h.broadcast]
  rows := h.rows.retirePeer rfl
  retired := by
    rw [retiredPeerStats_retirePeer, retiredPeerStats_retirePeer, accumulateRetiredStats,
      accumulateRetiredStats]
    have hstats : s.peerStats.get? (b, p) = s'.peerStats.get? (b, p) := h.rows.liveStats rfl
    rw [hstats, h.retired]
    cases s'.peerStats.get? (b, p) with
    | none => exact h.retired
    | some stats =>
        show (s.retiredPeerStats.set b _).get? b = (s'.retiredPeerStats.set b _).get? b
        rw [OrderedMap.get?_set, OrderedMap.get?_set, if_pos rfl, if_pos rfl]
  failureConsensus := by
    rw [failureConsensus_retirePeer, failureConsensus_retirePeer]
    exact h.failureConsensus
  maxSegmentsPerPeer := by
    rw [retirePeer_maxSegmentsPerPeer, retirePeer_maxSegmentsPerPeer, h.maxSegmentsPerPeer]

end SameOf

/-! ## The operations -/

theorem confinedReport_of {α : Type} {f : SQLiteStore → Except StoreError (SQLiteStore × α)}
    (halike : ∀ {s s'}, parts.PlainPeers s → SameOf b s s' → Alike (SameOf b) (f s) (f s'))
    (htouches : ∀ {s s' a}, f s = .ok (s', a) → Touches b p s s' ∧ (s.findPeer b p).isSome) :
    parts.ConfinedReport b p f where
  alike := halike
  apart := by
    intro s s' a b' hplain hok hb
    obtain ⟨htouch, hpresent⟩ := htouches hok
    rw [← isSome_record] at hpresent
    exact htouch.apart (Or.inl (hplain b p hpresent)) hb
  others := fun hok hne => (htouches hok).1.others hne
  present := by
    intro s s' a hok
    rw [isSome_record]
    exact (htouches hok).2

theorem confined_join (t : Timestamp) (b : BroadcastId) (request : PeerJoinRequest)
    (options : JoinPeerOptions) :
    parts.Confined b request.id fun s => s.joinPeerDetailed t b request options where
  alike := by
    intro s s' _ hsame
    have hbroadcast : SameOf b s s' := hsame
    show Alike (SameOf b) (s.joinPeerDetailed t b request options)
      (s'.joinPeerDetailed t b request options)
    unfold joinPeerDetailed
    rw [hbroadcast.requireBroadcast, hbroadcast.findPeer, hbroadcast.countPeers]
    cases s'.requireBroadcast b with
    | error e => exact .refused e
    | ok broadcast =>
        dsimp only
        split_ifs with hlimit
        · exact .refused _
        · have hjoined := hbroadcast.join request.id (joinRow request (s'.findPeer b request.id) t)
          rw [hjoined.requirePeer]
          cases SQLiteStore.requirePeer _ b request.id with
          | error e => exact .refused e
          | ok peer => exact .done hjoined _
  apart := by
    rintro s s' ⟨peer, already⟩ b' _ hok hb
    obtain ⟨-, -, rfl⟩ := joinPeerDetailed_ok.mp ⟨peer, already, hok⟩
    refine (Touches.join s b request.id _).apart (Or.inr ?_) hb
    unfold insertEmptyPeerStats
    split_ifs <;> rfl
  others := by
    rintro s s' ⟨peer, already⟩ b' p' hok hne
    obtain ⟨-, -, rfl⟩ := joinPeerDetailed_ok.mp ⟨peer, already, hok⟩
    exact (Touches.join s b request.id _).others hne

theorem joinPeerDetailed_already {t : Timestamp} {request : PeerJoinRequest}
    {options : JoinPeerOptions} {peer : Peer} {already : Bool}
    (hok : s.joinPeerDetailed t b request options = .ok (s', peer, already)) :
    already = (s.findPeer b request.id).isSome := by
  unfold joinPeerDetailed at hok
  cases hb : s.requireBroadcast b with
  | error e =>
      rw [hb] at hok
      exact absurd hok (by simp)
  | ok broadcast =>
      rw [hb] at hok
      dsimp only at hok
      split_ifs at hok
      revert hok
      cases SQLiteStore.requirePeer _ b request.id with
      | error e => exact fun hok => absurd hok (by simp)
      | ok found =>
          intro hok
          obtain ⟨-, hvalue⟩ := Prod.mk.inj (Except.ok.inj hok)
          exact (Prod.mk.inj hvalue).2.symm

theorem confined_leave (b : BroadcastId) (p : PeerId) :
    parts.ConfinedReport b p fun s => (s.leavePeer b p).map (·, ()) := by
  refine confinedReport_of (fun {s s'} _ hsame => ?_) fun {s s' a} hok => ?_
  · unfold leavePeer
    rw [hsame.requirePeer p]
    cases s'.requirePeer b p with
    | error e => exact .refused e
    | ok found => exact .done (hsame.retirePeer p) ()
  · obtain ⟨t, hleft, rfl⟩ := StoreParts.map_eq_ok hok
    obtain ⟨⟨-, hp⟩, rfl⟩ := leavePeer_ok.mp hleft
    exact ⟨.retirePeer s b p, hp⟩

theorem confined_reportSegments (t : Timestamp) (b : BroadcastId) (p : PeerId)
    (segments : List SegmentId) (replace : Bool) :
    parts.ConfinedReport b p fun s => s.reportSegments t b p segments replace := by
  refine confinedReport_of (fun {s s'} _ hsame => ?_) fun {s s' peer} hok => ?_
  · unfold reportSegments
    rw [hsame.requirePeer p]
    cases s'.requirePeer b p with
    | error e => exact .refused e
    | ok found =>
        rw [hsame.getSegments p, hsame.maxSegmentsPerPeer]
        have hwritten := hsame.withSegments t p
          (limitInventory (mergedReport (s'.getSegments b p) segments replace)
            s'.maxSegmentsPerPeer)
        unfold withSegments at hwritten
        rw [hsame.getSegments p] at hwritten
        dsimp only
        rw [hwritten.requirePeer p]
        cases SQLiteStore.requirePeer _ b p with
        | error e => exact .refused e
        | ok peer => exact .done hwritten _
  · obtain ⟨⟨-, hp⟩, rfl⟩ := reportSegments_ok.mp ⟨peer, hok⟩
    exact ⟨.withSegments s t b p _, hp⟩

theorem confined_heartbeat (t : Timestamp) (b : BroadcastId) (p : PeerId)
    (heartbeat : PeerHeartbeat) :
    parts.ConfinedReport b p fun s => s.heartbeat t b p heartbeat := by
  refine confinedReport_of (fun {s s'} _ hsame => ?_) fun {s s' peer} hok => ?_
  · unfold SQLiteStore.heartbeat
    rw [hsame.requirePeerRow p, hsame.getSegments p]
    cases s'.requirePeerRow b p with
    | error e => exact .refused e
    | ok row => exact .done (hsame.updatePeer p _) _
  · unfold SQLiteStore.heartbeat at hok
    cases hr : s.requirePeerRow b p with
    | error e =>
        rw [hr] at hok
        exact absurd hok (by simp)
    | ok row =>
        rw [hr] at hok
        obtain ⟨rfl, -⟩ := Prod.mk.inj (Except.ok.inj hok)
        rw [requirePeerRow_ok.mp hr]
        exact ⟨.updatePeer s b p _, rfl⟩

theorem confined_reportStats (t : Timestamp) (b : BroadcastId) (p : PeerId)
    (stats : TrafficRecord JsNumber) :
    parts.ConfinedReport b p fun s => (s.reportStats t b p stats).map (·, ()) := by
  refine confinedReport_of (fun {s s'} _ hsame => ?_) fun {s s' a} hok => ?_
  · unfold reportStats
    rw [hsame.requirePeerRow p]
    cases s'.requirePeerRow b p with
    | error e => exact .refused e
    | ok row =>
        have hset : SameOf b
            { s with peerStats := s.peerStats.set (b, p) (sanitizePeerTrafficStats stats) }
            { s' with peerStats := s'.peerStats.set (b, p) (sanitizePeerTrafficStats stats) } :=
          ⟨hsame.broadcast, hsame.rows.setStats _, hsame.retired, hsame.failureConsensus,
            hsame.maxSegmentsPerPeer⟩
        exact .done (hset.updatePeer p _) ()
  · obtain ⟨s₁, hreport, rfl⟩ := StoreParts.map_eq_ok hok
    unfold reportStats at hreport
    cases hr : s.requirePeerRow b p with
    | error e =>
        rw [hr] at hreport
        exact absurd hreport (by simp)
    | ok row =>
        rw [hr] at hreport
        obtain rfl := Except.ok.inj hreport
        rw [requirePeerRow_ok.mp hr]
        exact ⟨(Touches.setStats s b p _).trans (.updatePeer _ b p _), rfl⟩

/-! ### Failure reports -/

theorem plain_of_requirePeer (hplain : parts.PlainPeers s) {peer : Peer}
    (h : s.requirePeer b p = .ok peer) : PlainId p := by
  refine hplain b p ?_
  rw [isSome_record]
  exact (requirePeer_isOk_iff.mp ⟨peer, h⟩).2

/-- Everything a failure report can do: its two peers are stored, and the reported
one's quality is lowered if the report is confirmed. -/
theorem reportPeerFailure_ok {t : Timestamp} {report : PeerFailureReport} {peer : Peer}
    (hok : s.reportPeerFailure t b p report = .ok (s', peer)) :
    ∃ row trustScore successRate, s.findPeer b p = some row ∧
      s' = { s with failureConsensus :=
          (s.failureConsensus.observe t b p report).1 }.updatePeer b p
        (fun row => { row with trustScore, successRate }) ∧
      trustScore ≤ row.trustScore ∧ successRate ≤ row.successRate := by
  unfold reportPeerFailure at hok
  cases hr : s.requirePeer b p with
  | error e =>
      rw [hr] at hok
      exact absurd hok (by simp)
  | ok reported =>
      obtain ⟨-, row, hrow, rfl⟩ := requirePeer_ok.mp hr
      cases hreporter : s.requirePeer b report.reporterId with
      | error e =>
          rw [hr, hreporter] at hok
          exact absurd hok (by simp)
      | ok reporter =>
          rw [hr, hreporter] at hok
          dsimp only at hok
          split_ifs at hok
          · have hlower := penalizePeerQuality_le row.trustScore row.successRate report.reason
            revert hok
            cases SQLiteStore.requirePeer _ b p with
            | error e => exact fun hok => absurd hok (by simp)
            | ok read =>
                intro hok
                obtain ⟨rfl, -⟩ := Prod.mk.inj (Except.ok.inj hok)
                exact ⟨row, _, _, hrow, rfl, hlower.1, hlower.2⟩
          · obtain ⟨rfl, -⟩ := Prod.mk.inj (Except.ok.inj hok)
            refine ⟨row, row.trustScore, row.successRate, hrow, ?_, le_rfl, le_rfl⟩
            have hfound : ({ s with failureConsensus :=
                (s.failureConsensus.observe t b p report).1 } : SQLiteStore).findPeer b p
                  = some row := hrow
            unfold updatePeer
            rw [hfound]
            dsimp only
            rw [OrderedMap.set_of_get? hrow]

theorem confined_failure (t : Timestamp) (b : BroadcastId) (p : PeerId)
    (report : PeerFailureReport) :
    parts.ConfinedReport b p fun s => s.reportPeerFailure t b p report := by
  refine confinedReport_of (fun {s s'} hplain hsame => ?_) fun {s s' peer} hok => ?_
  · have hrequire := hsame.requirePeer p
    unfold reportPeerFailure
    cases hr : s.requirePeer b p with
    | error e =>
        rw [← hrequire, hr]
        exact .refused e
    | ok reported =>
        rw [← hrequire, hr, ← hsame.requirePeer report.reporterId]
        cases s.requirePeer b report.reporterId with
        | error e => exact .refused e
        | ok reporter =>
            obtain ⟨hconfirmed, hconsensus⟩ :=
              hsame.failureConsensus.observe t report
                (plain_of_requirePeer hplain hr)
            have hobserved : SameOf b
                { s with failureConsensus := (s.failureConsensus.observe t b p report).1 }
                { s' with failureConsensus := (s'.failureConsensus.observe t b p report).1 } :=
              ⟨hsame.broadcast, ⟨hsame.rows.peers, hsame.rows.segments, hsame.rows.stats⟩,
                hsame.retired, hconsensus, hsame.maxSegmentsPerPeer⟩
            dsimp only
            rw [hconfirmed]
            split_ifs
            · have hlowered := hobserved.updatePeer p fun row =>
                { row with
                  trustScore := (penalizePeerQuality reported.trustScore reported.successRate
                    report.reason).1
                  successRate := (penalizePeerQuality reported.trustScore reported.successRate
                    report.reason).2 }
              rw [hlowered.requirePeer p]
              cases SQLiteStore.requirePeer _ b p with
              | error e => exact .refused e
              | ok peer => exact .done hlowered _
            · exact .done hobserved _
  · obtain ⟨row, trustScore, successRate, hrow, rfl, -⟩ := reportPeerFailure_ok hok
    have hobserved : Touches b p s
        { s with failureConsensus := (s.failureConsensus.observe t b p report).1 } :=
      ⟨rfl, fun _ _ _ => ⟨rfl, rfl, rfl⟩, fun _ _ => rfl,
        fun hp b' hb => PeerFailureConsensus.observe_apart hp hb, rfl⟩
    rw [hrow]
    exact ⟨hobserved.trans (.updatePeer _ b p _), rfl⟩

theorem failure_lowers {t : Timestamp} {report : PeerFailureReport} {peer : Peer}
    (hok : s.reportPeerFailure t b p report = .ok (s', peer)) :
    QualityLowered (parts.record s b p) (parts.record s' b p) := by
  obtain ⟨row, trustScore, successRate, hrow, rfl, htrust, hsuccess⟩ := reportPeerFailure_ok hok
  generalize hobserved : ({ s with failureConsensus :=
    (s.failureConsensus.observe t b p report).1 } : SQLiteStore) = observed
  have hfound : observed.findPeer b p = some row := by
    rw [← hobserved]
    exact hrow
  have hsegments : observed.getSegments b p = s.getSegments b p := by
    rw [← hobserved]
    rfl
  have hstats : observed.liveStats b p = s.liveStats b p := by
    rw [← hobserved]
    rfl
  refine ⟨⟨⟨mapPeer p row (s.getSegments b p), (s.liveStats b p).getD 0⟩, trustScore,
    successRate, ?_, ?_, htrust, hsuccess⟩⟩
  · show (s.getPeer b p).map _ = _
    rw [SQLiteStore.getPeer, hrow]
    rfl
  · show ((observed.updatePeer b p _).getPeer b p).map _ = _
    have hstatsAfter : (observed.updatePeer b p fun row =>
        { row with trustScore, successRate }).liveStats b p = s.liveStats b p := by
      rw [← hstats]
      unfold liveStats
      rw [(updatePeer_stats ..).1]
    rw [SQLiteStore.getPeer, findPeer_updatePeer, if_pos ⟨rfl, rfl⟩, hfound, hstatsAfter,
      getSegments_congr (updatePeer_peerSegments ..), hsegments]
    rfl

/-- **The SQLite store keeps broadcasts and peers apart.** -/
def keepsApart (maxSegmentsPerPeer : ℕ) : (backend maxSegmentsPerPeer).KeepsApart where
  toStoreParts := parts
  refl := SameOf.refl
  new_record := fun _ _ => rfl
  getPeer := by
    intro s b p
    show s.getPeer b p = ((s.getPeer b p).map _).map _
    rw [Option.map_map]
    exact Option.map_id'.symm
  record_congr := fun {s s' b} hsame p => record_congr (SameOf.rows hsame) rfl
  getBroadcast_congr := fun {s s' b} hsame => SameOf.requireBroadcast hsame
  listPeers_congr := fun {s s' b} hsame segment => SameOf.listPeers hsame segment
  joins := confined_join
  alreadyJoined := by
    intro s s' t b request options peer already hok
    rw [isSome_record]
    exact joinPeerDetailed_already hok
  leaves := confined_leave
  reportsSegments := confined_reportSegments
  heartbeats := confined_heartbeat
  reportsStats := confined_reportStats
  reportsFailure := confined_failure
  failureLowers := failure_lowers
  registers := by
    intro s t registration b p
    obtain ⟨hpeers, hsegments, hstats⟩ : (s.registerBroadcast t registration).1.peers = s.peers ∧
        (s.registerBroadcast t registration).1.peerSegments = s.peerSegments ∧
        (s.registerBroadcast t registration).1.peerStats = s.peerStats := by
      unfold registerBroadcast
      cases s.findBroadcast registration.id <;> exact ⟨rfl, rfl, rfl⟩
    have hrows : SameRows (fun _ => True) (s.registerBroadcast t registration).1 s :=
      ⟨by rw [hpeers], by rw [hsegments], by rw [hstats]⟩
    exact record_congr hrows trivial
  unregisters := by
    intro s s' id hok b p hrecord
    rw [isSome_record] at hrecord ⊢
    have hdelete : s.unregisterBroadcast id = .ok s' := hok
    unfold unregisterBroadcast at hdelete
    cases hr : s.requireBroadcast id with
    | error e =>
        rw [hr] at hdelete
        exact absurd hdelete (by simp)
    | ok broadcast =>
        rw [hr] at hdelete
        obtain rfl := Except.ok.inj hdelete
        change (OrderedMap.get? (List.foldl OrderedMap.delete s.peers _) (b, p)).isSome = true
          at hrecord
        rw [OrderedMap.get?_foldl_delete] at hrecord
        split_ifs at hrecord
        · exact absurd hrecord Bool.false_ne_true
        · exact hrecord

end SQLiteStore

end OpenStreamGrid
