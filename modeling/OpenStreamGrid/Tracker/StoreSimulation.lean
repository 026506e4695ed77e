import OpenStreamGrid.Lib.IsoTime
import OpenStreamGrid.Tracker.StoreInterchange

/-!
# Running both stores on one clock

Related stores answer every call alike and stay related; so do the two stores
of any run, started empty and called in turn with a clock that never goes back.
The sweep compares ISO texts in SQLite and numbers in memory: within the years
0 to 9999 both find the same peers.
-/

namespace OpenStreamGrid

namespace Interchangeable

variable {m : TrackerStore} {q : SQLiteStore}

/-! ## Reading -/

theorem reading {α β : Type} {f : α → StoreValue} {g : β → StoreValue} {r : Except StoreError α}
    {r' : Except StoreError β} (h : Interchangeable m q)
    (hr : (∃ e, r = .error e ∧ r' = .error e) ∨
      ∃ a a', r = .ok a ∧ r' = .ok a' ∧ SameValue (f a) (g a')) :
    Answers (OpenStreamGrid.reading m f r) (OpenStreamGrid.reading q g r') := by
  rcases hr with ⟨e, rfl, rfl⟩ | ⟨a, a', rfl, rfl, hvalue⟩
  · exact .refused e
  · exact .done h hvalue

/-- Whatever is listed per peer, alike for a peer both stores hold, both list it
up to order. -/
theorem listing_perm {γ : Type} (h : Interchangeable m q) {b : BroadcastId}
    {state : BroadcastState} (hs : m.broadcasts.get? b = some state)
    {f : PeerId → PeerState → Option γ} {g : PeerId → PeerRow → Option γ}
    (hfg : ∀ p peerState row, Found m q b p state peerState row → f p peerState = g p row) :
    (state.peers.entries.filterMap fun e => f e.1 e.2).Perm
      ((q.peers.entries.filter fun e => decide (e.1.1 = b)).filterMap fun e => g e.1.2 e.2) := by
  have hmemory : (state.peers.entries.filterMap fun e => f e.1 e.2)
      = state.peers.keys.filterMap fun p => (state.peers.get? p).bind (f p) := by
    rw [OrderedMap.keys, List.filterMap_map]
    apply List.filterMap_congr
    intro e he
    rw [Function.comp_apply, OrderedMap.get?_eq_some_iff.mpr he, Option.bind_some]
  have hsqlite : ((q.peers.entries.filter fun e => decide (e.1.1 = b)).filterMap
        fun e => g e.1.2 e.2)
      = ((q.peers.keys.filter fun key => decide (key.1 = b)).map Prod.snd).filterMap
          fun p => (q.findPeer b p).bind (g p) := by
    rw [OrderedMap.keys, List.filter_map, List.map_map, List.filterMap_map]
    apply List.filterMap_congr
    intro e he
    obtain ⟨hmem, hb⟩ := List.mem_filter.mp he
    have hfind : q.findPeer b e.1.2 = some e.2 := by
      rw [decide_eq_true_eq] at hb
      rw [SQLiteStore.findPeer, ← hb]
      exact OrderedMap.get?_eq_some_iff.mpr hmem
    rw [Function.comp_apply, Function.comp_apply, hfind, Option.bind_some]
  have hpeer : (fun p => (state.peers.get? p).bind (f p))
      = fun p => (q.findPeer b p).bind (g p) := by
    funext p
    have hfound : m.peerState? b p = state.peers.get? p := by
      simp [TrackerStore.peerState?, hs]
    cases hp : state.peers.get? p with
    | some peerState =>
        rw [hp] at hfound
        obtain ⟨state', row, hf⟩ := h.found_of_peerState? hfound
        obtain rfl := Option.some.inj (hf.getState.symm.trans hs)
        rw [hf.findPeer, Option.bind_some, Option.bind_some]
        exact hfg p peerState row hf
    | none =>
        rw [hp] at hfound
        have hrow := h.isSome_findPeer b p
        rw [hfound, Option.isSome_none] at hrow
        have hnone : q.findPeer b p = none := by
          rw [← Option.not_isSome_iff_eq_none, ← hrow]
          exact Bool.false_ne_true
        rw [hnone]
        rfl
  rw [hmemory, hsqlite, hpeer]
  exact (peerIds_perm h.isSome_findPeer hs).symm.filterMap _

/-- The peers of a broadcast that a listing keeps. -/
theorem listPeers_perm (h : Interchangeable m q) {b : BroadcastId} {state : BroadcastState}
    (hs : m.broadcasts.get? b = some state) {keep : Peer → Bool}
    (hkeep : ∀ p peerState row, Found m q b p state peerState row →
      keep peerState.peer = keep (SQLiteStore.mapPeer p row (q.getSegments b p))) :
    (((state.peers.values.map PeerState.peer).filter keep).map Peer.bare).Perm
      (((((q.peers.entries.filter fun e => decide (e.1.1 = b)).map fun e =>
          SQLiteStore.mapPeer e.1.2 e.2 (q.getSegments b e.1.2)).filter keep).insertionSort
            Peer.listedBefore).map Peer.bare) := by
  have hlist := h.listing_perm hs
    (f := fun _ peerState =>
      if keep peerState.peer then some peerState.peer.bare else none)
    (g := fun p row =>
      if keep (SQLiteStore.mapPeer p row (q.getSegments b p)) then
        some (SQLiteStore.mapPeer p row []) else none)
    (fun p peerState row hf => by rw [hkeep p peerState row hf, hf.bare])
  have hkept : ∀ {α : Type} (l : List α) (peer : α → Peer),
      ((l.map peer).filter keep).map Peer.bare
        = l.filterMap fun x => if keep (peer x) then some (peer x).bare else none := by
    intro α l peer
    induction l with
    | nil => rfl
    | cons x rest ih =>
        rw [List.map_cons, List.filter_cons, List.filterMap_cons, ← ih]
        split_ifs <;> rfl
  refine List.Perm.trans ?_ (((List.perm_insertionSort _ _).map _).symm)
  rw [OrderedMap.values, List.map_map, hkept, hkept]
  exact hlist

theorem listPeers (h : Interchangeable m q) (b : BroadcastId) :
    Answers (OpenStreamGrid.reading m .peers (m.listPeers b none))
      (OpenStreamGrid.reading q .peers (q.listPeers b none)) := by
  apply h.reading
  unfold TrackerStore.listPeers SQLiteStore.listPeers
  rcases h.requireBroadcast_cases b with ⟨hm, hq⟩ | ⟨state, hs, hm, hq⟩
  · rw [hm, hq]
    exact Or.inl ⟨_, rfl, rfl⟩
  · rw [hm, hq]
    exact Or.inr ⟨_, _, rfl, rfl, .peers (h.listPeers_perm hs fun _ _ _ _ => rfl)⟩

/-- A peer that both stores list has an ID of its own. -/
theorem listPeersWithSegment (h : Interchangeable m q) (b : BroadcastId) (segment : SegmentId) :
    Answers (OpenStreamGrid.reading m .holders (m.listPeers b (some segment)))
      (OpenStreamGrid.reading q .holders (q.listPeers b (some segment))) := by
  apply h.reading
  unfold TrackerStore.listPeers SQLiteStore.listPeers
  rcases h.requireBroadcast_cases b with ⟨hm, hq⟩ | ⟨state, hs, hm, hq⟩
  · rw [hm, hq]
    exact Or.inl ⟨_, rfl, rfl⟩
  · rw [hm, hq]
    refine Or.inr ⟨_, _, rfl, rfl, .holders ?_⟩
    intro x hx y hy hid
    obtain ⟨peerState, hstored, rfl⟩ := List.mem_map.mp (List.mem_filter.mp hx).1
    obtain ⟨p, hp⟩ := OrderedMap.mem_values_iff.mp hstored
    obtain ⟨⟨⟨b', p'⟩, row⟩, hrow, rfl⟩ :=
      List.mem_map.mp (List.mem_filter.mp ((List.perm_insertionSort _ _).mem_iff.mp hy)).1
    obtain ⟨hentry, hb⟩ := List.mem_filter.mp hrow
    rw [decide_eq_true_eq] at hb
    obtain rfl : b' = b := hb
    have hfound : m.peerState? b' p = some peerState := by
      rw [TrackerStore.peerState?, hs]
      exact hp
    obtain ⟨state', row', hf⟩ := h.found_of_peerState? hfound
    have hp' : p = p' := (congrArg (fun peer : Peer => peer.id) hf.bare).symm.trans hid
    subst hp'
    obtain rfl := Option.some.inj (hf.findPeer.symm.trans (OrderedMap.get?_eq_some_iff.mpr hentry))
    exact hf.bare

theorem listPeerStats (h : Interchangeable m q) (b : BroadcastId) :
    Answers (OpenStreamGrid.reading m .snapshots (m.listPeerStats b))
      (OpenStreamGrid.reading q .snapshots (q.listPeerStats b)) := by
  apply h.reading
  unfold TrackerStore.listPeerStats SQLiteStore.listPeerStats SQLiteStore.listPeers
  rcases h.requireBroadcast_cases b with ⟨hm, hq⟩ | ⟨state, hs, hm, hq⟩
  · rw [hm, hq]
    exact Or.inl ⟨_, rfl, rfl⟩
  · rw [hm, hq]
    refine Or.inr ⟨_, _, rfl, rfl, .snapshots ?_⟩
    have hlist := h.listing_perm hs
      (f := fun _ peerState => some (peerState.peer.bare, peerState.stats))
      (g := fun p row => some (SQLiteStore.mapPeer p row [],
        (q.peerStats.get? (b, p)).getD createEmptyPeerTrafficStats))
      (fun p peerState row hf => by
        have hstats : q.peerStats.get? (b, p) = some peerState.stats := hf.liveStats
        rw [hf.bare, hstats, Option.getD_some])
    rw [List.map_map, List.map_map]
    refine List.Perm.trans ?_ (((List.perm_insertionSort _ _).map _).symm)
    rw [List.filterMap_eq_map', List.filterMap_eq_map'] at hlist
    rw [OrderedMap.values, List.map_map, List.filter_true, List.map_map]
    exact hlist

/-! ## Statistics -/

theorem liveStats_of_broadcast (h : Interchangeable m q) {b : BroadcastId}
    {state : BroadcastState} (hs : m.broadcasts.get? b = some state) (p : PeerId) :
    (state.peers.get? p).map PeerState.stats = q.peerStats.get? (b, p) := by
  have hstats := h.stats b p
  rw [TrackerStore.liveStats, TrackerStore.peerState?, hs] at hstats
  exact hstats

theorem totals_eq (h : Interchangeable m q) {b : BroadcastId} {state : BroadcastState}
    (hs : m.broadcasts.get? b = some state) :
    q.getBroadcastStats b = .ok (TrackerStore.totalsFor state) := by
  have hrows : (q.peerStats.keys.toFinset.filter fun key => key.1 = b)
      = state.peers.keys.toFinset.image (Prod.mk b) := by
    ext ⟨b', p⟩
    have hmem : p ∈ state.peers ↔ (b, p) ∈ q.peerStats := by
      rw [OrderedMap.mem_iff_isSome, OrderedMap.mem_iff_isSome,
        ← h.liveStats_of_broadcast hs, Option.isSome_map]
    simp only [Finset.mem_filter, Finset.mem_image, List.mem_toFinset,
      ← OrderedMap.mem_iff_mem_keys, Prod.mk.injEq]
    constructor
    · rintro ⟨hkey, rfl⟩
      exact ⟨p, hmem.mpr hkey, rfl, rfl⟩
    · rintro ⟨p', hp, rfl, rfl⟩
      exact ⟨hmem.mp hp, rfl⟩
  have hlive : ∑ key ∈ q.peerStats.keys.toFinset with key.1 = b, (q.peerStats.get? key).getD 0
      = state.peers.sumValues PeerState.stats := by
    rw [hrows, Finset.sum_image (fun _ _ _ _ heq => (Prod.mk.inj heq).2),
      OrderedMap.sumValues_eq_sum_keys]
    simp only [h.liveStats_of_broadcast hs]
  have hretired : (q.retiredPeerStats.get? b).getD 0 = state.retiredStats := by
    have hsum := h.retired b
    rw [TrackerStore.retiredSum, hs] at hsum
    exact hsum.symm
  have hb : b ∈ q.broadcasts := (h.mem_broadcasts b).mp (OrderedMap.mem_of_get? hs)
  rw [q.getBroadcastStats_eq hb, hlive, hretired, countPeers_eq_size h.isSome_findPeer hs,
    ← TrackerStore.totalsFor_stats]
  rfl

theorem getBroadcastStats_cases (h : Interchangeable m q) (b : BroadcastId) :
    (∃ e, m.getBroadcastStats b = .error e ∧ q.getBroadcastStats b = .error e) ∨
      ∃ totals, m.getBroadcastStats b = .ok totals ∧ q.getBroadcastStats b = .ok totals := by
  rcases h.requireBroadcast_cases b with ⟨hm, hq⟩ | ⟨state, hs, hm, hq⟩
  · refine Or.inl ⟨broadcastNotFound b, ?_, ?_⟩
    · rw [TrackerStore.getBroadcastStats, hm]
      rfl
    · rw [SQLiteStore.getBroadcastStats, hq]
      rfl
  · refine Or.inr ⟨TrackerStore.totalsFor state, ?_, h.totals_eq hs⟩
    rw [TrackerStore.getBroadcastStats, hm]
    rfl

/-- Both global totals are the sum of the same broadcasts' totals. -/
theorem getGlobalStats_eq (h : Interchangeable m q) : m.getGlobalStats = q.getGlobalStats := by
  obtain ⟨ids, hids, hm⟩ := (TrackerStore.sumsUp 0 m).totals
  obtain ⟨ids', hids', hq⟩ := (SQLiteStore.sumsUp 0 h.owned).totals
  have hsame : ∀ b, (m.getBroadcastStats b).toOption = (q.getBroadcastStats b).toOption := by
    intro b
    rcases h.getBroadcastStats_cases b with ⟨e, hm, hq⟩ | ⟨totals, hm, hq⟩
    · rw [hm, hq]
    · rw [hm, hq]
  have hsets : ids = ids' := by
    ext b
    rw [hids, hids']
    simp only [← toOption_eq_some]
    change (∃ totals, (m.getBroadcastStats b).toOption = _) ↔ _
    rw [hsame]
    rfl
  change (TrackerStore.backend 0).getGlobalStats m = (SQLiteStore.backend 0).getGlobalStats q
  rw [hm, hq, hsets]
  have hpeers : (TrackerStore.backend 0).peersOf m = (SQLiteStore.backend 0).peersOf q := by
    funext b
    exact congrArg (fun r => (Option.map TrafficTotals.peers r).getD 0) (hsame b)
  have hstats : (TrackerStore.backend 0).statsOf m = (SQLiteStore.backend 0).statsOf q := by
    funext b
    exact congrArg (fun r => (Option.map TrafficTotals.stats r).getD 0) (hsame b)
  rw [hpeers, hstats]

/-! ## Writing -/

/-- What the calls share that change a required peer and return it. -/
theorem modify (h : Interchangeable m q) {b : BroadcastId} {p : PeerId}
    {f : PeerState → PeerState} {r : Except StoreError (SQLiteStore × Peer)}
    (herror : ∀ e, q.requirePeer b p = .error e → q.requirePeerRow b p = .error e → r = .error e)
    (hok : ∀ state peerState row, Found m q b p state peerState row →
      ∃ q' row' segments, r = .ok (q', SQLiteStore.mapPeer p row' segments) ∧
        q.RowWritten q' b p row' (f peerState).stats ∧
        (f peerState).peer.bare = SQLiteStore.mapPeer p row' []) :
    Answers (returning .peer (m.modifyPeer b p f)) (returning .peer r) := by
  rcases h.requirePeer_cases b p with ⟨e, hm, hq, hrow⟩ | ⟨state, peerState, row, hf⟩
  · rw [herror e hq hrow, TrackerStore.modifyPeer, hm]
    exact .refused e
  · obtain ⟨q', row', segments, rfl, hwritten, hnew⟩ := hok state peerState row hf
    rw [TrackerStore.modifyPeer_ok.mpr
      ⟨state, peerState, hf.getState, hf.getPeerState, rfl, rfl⟩]
    exact .done (h.write hf.getState hwritten hnew) (.peer hnew)

theorem reportSegments (h : Interchangeable m q) (t : Timestamp) (b : BroadcastId) (p : PeerId)
    (segments : List SegmentId) (replace : Bool) :
    Answers (returning .peer (m.reportSegments t b p segments replace))
      (returning .peer (q.reportSegments t b p segments replace)) := by
  apply h.modify
  · intro e hq _
    rw [SQLiteStore.reportSegments, hq]
  · intro state peerState row hf
    obtain ⟨next, hnext⟩ : ∃ next, next = limitInventory
      (mergedReport (q.getSegments b p) segments replace) q.maxSegmentsPerPeer := ⟨_, rfl⟩
    have hwritten := SQLiteStore.rowWritten_withSegments hf.findPeer hf.liveStats t next
    have hread := SQLiteStore.requirePeer_ok.mpr ⟨by
      rw [hwritten.broadcasts]
      exact hf.mem_broadcasts, _, by rw [hwritten.findPeer, if_pos ⟨rfl, rfl⟩], rfl⟩
    refine ⟨_, _, (q.withSegments t b p next).getSegments b p, ?_, hwritten, ?_⟩
    · rw [SQLiteStore.reportSegments, hf.requirePeer.2.1]
      dsimp only
      rw [← hnext]
      unfold SQLiteStore.withSegments at hread ⊢
      simp only [hread]
    · change { peerState.peer.bare with lastSeenAt := t } = _
      rw [hf.bare]
      rfl

theorem applySegmentDelta (h : Interchangeable m q) (t : Timestamp) (b : BroadcastId)
    (p : PeerId) (added removed : List SegmentId) :
    Answers (returning .peer (m.applySegmentDelta t b p added removed))
      (returning .peer (q.applySegmentDelta t b p added removed)) := by
  apply h.modify
  · intro e _ hrow
    rw [SQLiteStore.applySegmentDelta, hrow]
  · intro state peerState row hf
    obtain ⟨next, hnext⟩ : ∃ next, next = limitInventory
      (mergedDelta (q.getSegments b p) added removed) q.maxSegmentsPerPeer := ⟨_, rfl⟩
    refine ⟨_, _, (q.getSegments b p).filter (fun segment => decide (segment ∈ next)) ++
      next.filter (fun segment => decide (segment ∉ q.getSegments b p)), ?_,
      SQLiteStore.rowWritten_withSegments hf.findPeer hf.liveStats t next, ?_⟩
    · rw [SQLiteStore.applySegmentDelta, hf.requirePeer.2.2, hnext]
      rfl
    · change { peerState.peer.bare with lastSeenAt := t } = _
      rw [hf.bare]
      rfl

theorem heartbeat (h : Interchangeable m q) (t : Timestamp) (b : BroadcastId) (p : PeerId)
    (heartbeat : PeerHeartbeat) :
    Answers (returning .peer (m.heartbeat t b p heartbeat))
      (returning .peer (q.heartbeat t b p heartbeat)) := by
  apply h.modify
  · intro e _ hrow
    rw [SQLiteStore.heartbeat, hrow]
  · intro state peerState row hf
    have hwritten := SQLiteStore.rowWritten_updatePeer hf.findPeer hf.liveStats fun row' =>
      { row' with
        uploadBandwidthBps :=
          (heartbeat.uploadBandwidthBps.map fun v => some v.toNNRat).getD row.uploadBandwidthBps
        latencyMs := (heartbeat.latencyMs.map Rat.toNNRat).getD row.latencyMs
        successRate := (heartbeat.successRate.map clampUnitInterval).getD row.successRate
        lastSeenAt := t }
    refine ⟨_, _, q.getSegments b p, ?_, hwritten, ?_⟩
    · rw [SQLiteStore.heartbeat, hf.requirePeer.2.2]
    · change { peerState.peer.bare.withHeartbeat heartbeat with lastSeenAt := t } = _
      rw [hf.bare]
      rfl

/-- `reportStats` returns nothing; the counters go to their own table. -/
theorem reportStats (h : Interchangeable m q) (t : Timestamp) (b : BroadcastId) (p : PeerId)
    (stats : TrafficRecord JsNumber) :
    Answers (writing ((m.reportStats t b p stats).map Prod.fst))
      (writing (q.reportStats t b p stats)) := by
  unfold TrackerStore.reportStats SQLiteStore.reportStats
  rcases h.requirePeer_cases b p with ⟨e, hm, -, hrow⟩ | ⟨state, peerState, row, hf⟩
  · rw [TrackerStore.modifyPeer, hm, hrow]
    exact .refused e
  · rw [TrackerStore.modifyPeer_ok.mpr
      ⟨state, peerState, hf.getState, hf.getPeerState, rfl, rfl⟩, hf.requirePeer.2.2]
    refine .done (h.write hf.getState
      (SQLiteStore.rowWritten_reportStats hf.findPeer (sanitizePeerTrafficStats stats) t) ?_)
      (.refl _)
    change { peerState.peer.bare with lastSeenAt := t } = _
    rw [hf.bare]
    rfl

/-- The quality a confirmed failure leaves is computed from the same scores. -/
theorem reportPeerFailure (h : Interchangeable m q) (now : Timestamp) (b : BroadcastId)
    (p : PeerId) (report : PeerFailureReport) :
    Answers (returning .peer (m.reportPeerFailure now b p report))
      (returning .peer (q.reportPeerFailure now b p report)) := by
  unfold TrackerStore.reportPeerFailure SQLiteStore.reportPeerFailure
  rcases h.requirePeer_cases b p with ⟨e, hm, hq, -⟩ | ⟨state, peerState, row, hf⟩
  · rw [hm, hq]
    exact .refused e
  rcases h.requirePeer_cases b report.reporterId with
    ⟨e, hm, hq, -⟩ | ⟨state', peerState', row', hf'⟩
  · rw [hm, hq, hf.requirePeer.1, hf.requirePeer.2.1]
    exact .refused e
  rw [hf.requirePeer.1, hf.requirePeer.2.1, hf'.requirePeer.1, hf'.requirePeer.2.1,
    h.failureConsensus]
  obtain ⟨failureConsensus, confirmed⟩ := q.failureConsensus.observe now b p report
  dsimp only
  have hnext := h.withConsensus failureConsensus
  cases confirmed with
  | false => exact .done hnext (.peer hf.bare)
  | true =>
      rw [if_pos rfl, if_pos rfl]
      apply hnext.modify
      · intro e hq _
        exact absurd (hq.symm.trans hf.requirePeer.2.1) (by simp)
      · intro state₁ peerState₁ row₁ hf₁
        obtain rfl : row₁ = row := Option.some.inj (hf₁.findPeer.symm.trans hf.findPeer)
        have htrust : peerState₁.peer.trustScore = row₁.trustScore :=
          congrArg Peer.trustScore hf₁.bare
        have hrate : peerState₁.peer.successRate = row₁.successRate :=
          congrArg Peer.successRate hf₁.bare
        have hwritten := SQLiteStore.rowWritten_updatePeer hf₁.findPeer hf₁.liveStats fun row =>
          { row with
            trustScore := (penalizePeerQuality row₁.trustScore row₁.successRate report.reason).1
            successRate := (penalizePeerQuality row₁.trustScore row₁.successRate report.reason).2 }
        have hread := SQLiteStore.requirePeer_ok.mpr ⟨by
          rw [hwritten.broadcasts]
          exact hf₁.mem_broadcasts, _, by rw [hwritten.findPeer, if_pos ⟨rfl, rfl⟩], rfl⟩
        rw [SQLiteStore.getSegments_congr (SQLiteStore.updatePeer_peerSegments ..)] at hread
        refine ⟨_, _, q.getSegments b p, ?_, hwritten, ?_⟩
        · dsimp only [SQLiteStore.mapPeer] at hread ⊢
          rw [hread]
          rfl
        · rw [← htrust, ← hrate]
          generalize penalizePeerQuality peerState₁.peer.trustScore peerState₁.peer.successRate
            report.reason = quality
          change { peerState₁.peer.bare with
            trustScore := quality.1, successRate := quality.2 } = _
          rw [hf₁.bare]
          rfl

/-- Both stores refuse the same joins, and merge a re-join into the same record. -/
theorem joinPeer (h : Interchangeable m q) (t : Timestamp) (b : BroadcastId)
    (request : PeerJoinRequest) (options : JoinPeerOptions) :
    Answers (returning (fun x => .joined x.1 x.2) (m.joinPeerDetailed t b request options))
      (returning (fun x => .joined x.1 x.2) (q.joinPeerDetailed t b request options)) := by
  unfold TrackerStore.joinPeerDetailed SQLiteStore.joinPeerDetailed
  rcases h.requireBroadcast_cases b with ⟨hm, hq⟩ | ⟨state, hs, hm, hq⟩
  · rw [hm, hq]
    exact .refused _
  have hfound : m.peerState? b request.id = state.peers.get? request.id := by
    simp [TrackerStore.peerState?, hs]
  have hisSome : (q.findPeer b request.id).isSome = (state.peers.get? request.id).isSome := by
    rw [← h.isSome_findPeer, hfound]
  have hisNone : (q.findPeer b request.id).isNone = (state.peers.get? request.id).isNone := by
    rw [← Option.not_isSome, hisSome, Option.not_isSome]
  rw [hm, hq]
  dsimp only
  rw [hisNone, hisSome, countPeers_eq_size h.isSome_findPeer hs]
  by_cases hlimit : (state.peers.get? request.id).isNone = true ∧
      options.maxPeers.any (fun max => decide (state.peers.size ≥ max)) = true
  · rw [if_pos hlimit, if_pos hlimit]
    exact .refused _
  rw [if_neg hlimit, if_neg hlimit]
  have hwritten := SQLiteStore.rowWritten_join q b request t
  have hread := SQLiteStore.requirePeer_ok.mpr ⟨by
    rw [hwritten.broadcasts, ← h.mem_broadcasts]
    exact OrderedMap.mem_of_get? hs, _, by rw [hwritten.findPeer, if_pos ⟨rfl, rfl⟩], rfl⟩
  rw [hread]
  have hstats : ((state.peers.get? request.id).map PeerState.stats).getD
      createEmptyPeerTrafficStats = (q.liveStats b request.id).getD 0 := by
    rw [h.liveStats_of_broadcast hs]
    rfl
  have hpeer : (joinedPeer request ((state.peers.get? request.id).map PeerState.peer) t).bare
      = SQLiteStore.mapPeer request.id (SQLiteStore.joinRow request (q.findPeer b request.id) t) [] := by
    cases hp : state.peers.get? request.id with
    | none =>
        rw [hp, Option.isSome_none] at hisSome
        have hnone : q.findPeer b request.id = none := by
          rw [← Option.not_isSome_iff_eq_none, hisSome]
          exact Bool.false_ne_true
        rw [hnone]
        rfl
    | some peerState =>
        rw [hp] at hfound
        obtain ⟨state', row, hf⟩ := h.found_of_peerState? hfound
        have hjoined : peerState.peer.joinedAt = row.joinedAt := congrArg Peer.joinedAt hf.bare
        have hlatency : peerState.peer.latencyMs = row.latencyMs := congrArg Peer.latencyMs hf.bare
        have hrate : peerState.peer.successRate = row.successRate :=
          congrArg Peer.successRate hf.bare
        have htrust : peerState.peer.trustScore = row.trustScore :=
          congrArg Peer.trustScore hf.bare
        rw [hf.findPeer]
        simp only [joinedPeer, Peer.bare, SQLiteStore.joinRow, SQLiteStore.mapPeer,
          Option.map_some, Option.getD_some, hjoined, hlatency, hrate, htrust]
  exact .done (h.write hs (hstats ▸ hwritten) hpeer) (.joined hpeer)

theorem leavePeer (h : Interchangeable m q) (b : BroadcastId) (p : PeerId) :
    Answers (writing (m.leavePeer b p)) (writing (q.leavePeer b p)) := by
  unfold TrackerStore.leavePeer SQLiteStore.leavePeer
  rcases h.requirePeer_cases b p with ⟨e, hm, hq, -⟩ | ⟨state, peerState, row, hf⟩
  · rw [hm, hq]
    exact .refused e
  · rw [hf.requirePeer.1, hf.requirePeer.2.1]
    exact .done (h.retirePeer b p) (.refl _)

/-- A sweep retires the same peers, in an order of its own. -/
theorem removeStalePeers (h : Interchangeable m q) (now : Timestamp) (maxAgeMs : ℤ) :
    Answers (returning .removed (.ok (m.removeStalePeers now maxAgeMs)))
      (returning .removed (.ok (q.removeStalePeers now maxAgeMs))) := by
  have hperm := h.stalePeers_perm (now - maxAgeMs)
  rw [TrackerStore.removeStalePeers_eq]
  exact .done (retirePeers_perm hperm (m.nodup_stalePeers _) h.retirePeers) (.removed hperm)

/-! ## Registering broadcasts -/

theorem registerBroadcast (h : Interchangeable m q) (t : Timestamp)
    (registration : BroadcastRegistration) :
    Answers
      (returning (fun x => .registered x.1 x.2) (.ok (m.registerBroadcast t registration)))
      (returning (fun x => .registered x.1 x.2) (.ok (q.registerBroadcast t registration))) := by
  have hresult : (m.registerBroadcast t registration).2
      = (q.registerBroadcast t registration).2 := by
    unfold TrackerStore.registerBroadcast SQLiteStore.registerBroadcast SQLiteStore.findBroadcast
    rw [← h.broadcasts]
    cases m.broadcasts.get? registration.id <;> rfl
  have hbroadcasts : ∀ b, ((m.registerBroadcast t registration).1.broadcasts.get? b).map
      BroadcastState.broadcast = (q.registerBroadcast t registration).1.broadcasts.get? b := by
    intro b
    have hb := h.broadcasts b
    unfold TrackerStore.registerBroadcast SQLiteStore.registerBroadcast SQLiteStore.findBroadcast
    rw [← h.broadcasts registration.id]
    cases m.broadcasts.get? registration.id with
    | none =>
        simp only [Option.map_none, OrderedMap.get?_set]
        split_ifs
        · rfl
        · exact hb
    | some state =>
        simp only [Option.map_some, OrderedMap.get?_set]
        split_ifs
        · rfl
        · exact hb
  obtain ⟨hpeers, hstats, hretired⟩ := q.registerBroadcast_tables t registration
  refine .done ⟨hbroadcasts, ?_, ?_, ?_, ?_, ?_⟩ ?_
  · intro b p
    rw [TrackerStore.getPeer, TrackerStore.peerState?_registerBroadcast, SQLiteStore.findPeer,
      hpeers]
    exact h.peers b p
  · intro b p
    rw [TrackerStore.liveStats, TrackerStore.peerState?_registerBroadcast, SQLiteStore.liveStats,
      hstats]
    exact h.stats b p
  · intro b
    rw [TrackerStore.retiredSum_registerBroadcast, SQLiteStore.retiredSum, hretired]
    exact h.retired b
  · intro b hb
    rw [hretired] at hb
    have hold := (h.mem_broadcasts b).mpr (h.retiredOwned b hb)
    rw [OrderedMap.mem_iff_isSome, ← hbroadcasts, Option.isSome_map, ← OrderedMap.mem_iff_isSome,
      TrackerStore.mem_registerBroadcast]
    exact Or.inl hold
  · unfold TrackerStore.registerBroadcast SQLiteStore.registerBroadcast
    cases m.broadcasts.get? registration.id <;> cases q.findBroadcast registration.id <;>
      exact h.failureConsensus
  · rw [hresult]
    exact .refl _

theorem unregisterBroadcast (h : Interchangeable m q) (id : BroadcastId) :
    Answers (writing (m.unregisterBroadcast id)) (writing (q.unregisterBroadcast id)) := by
  unfold TrackerStore.unregisterBroadcast SQLiteStore.unregisterBroadcast
  rcases h.requireBroadcast_cases id with ⟨hm, hq⟩ | ⟨state, hs, -, hq⟩
  · have hnone : id ∉ m.broadcasts := by
      rw [h.mem_broadcasts, ← SQLiteStore.requireBroadcast_isOk_iff, hq]
      rintro ⟨broadcast, hok⟩
      exact absurd hok (by simp)
    rw [if_neg hnone, hq]
    exact .refused _
  rw [if_pos (OrderedMap.mem_of_get? hs), hq]
  -- Every table loses the rows of the broadcast, and no other.
  have hrows : ∀ {β : Type} (table : OrderedMap (BroadcastId × PeerId) β) (b : BroadcastId)
      (p : PeerId), ((table.keys.filter fun key => decide (key.1 = id)).foldl
        OrderedMap.delete table).get? (b, p) = if b = id then none else table.get? (b, p) := by
    intro β table b p
    rw [OrderedMap.get?_foldl_delete]
    by_cases hb : b = id
    · rw [if_pos hb]
      split_ifs with hkey
      · rfl
      · rw [OrderedMap.get?_eq_none_iff]
        intro hmem
        exact hkey (List.mem_filter.mpr ⟨hmem, by simpa using hb⟩)
    · rw [if_neg hb, if_neg]
      intro hkey
      exact hb (by simpa using (List.mem_filter.mp hkey).2)
  have hstate : ∀ b p, TrackerStore.peerState? { m with broadcasts := m.broadcasts.delete id } b p
      = if b = id then none else m.peerState? b p := by
    intro b p
    unfold TrackerStore.peerState?
    rw [OrderedMap.get?_delete]
    split_ifs <;> rfl
  refine .done ⟨?_, ?_, ?_, ?_, ?_, h.failureConsensus⟩ (.refl _)
  · intro b
    rw [OrderedMap.get?_delete, OrderedMap.get?_delete, ← h.broadcasts]
    split_ifs <;> rfl
  · intro b p
    rw [TrackerStore.getPeer, hstate, SQLiteStore.findPeer, hrows]
    split_ifs
    · rfl
    · exact h.peers b p
  · intro b p
    rw [TrackerStore.liveStats, hstate, SQLiteStore.liveStats, hrows]
    split_ifs
    · rfl
    · exact h.stats b p
  · intro b
    have hretired := h.retired b
    unfold TrackerStore.retiredSum SQLiteStore.retiredSum at hretired ⊢
    rw [OrderedMap.get?_delete, OrderedMap.get?_delete]
    split_ifs
    · rfl
    · exact hretired
  · intro b hb
    rw [OrderedMap.mem_delete] at hb ⊢
    exact ⟨h.retiredOwned b hb.1, hb.2⟩

/-! ## Every call -/

theorem listBroadcasts_perm (h : Interchangeable m q) :
    m.listBroadcasts.Perm q.listBroadcasts := by
  have hkeys := OrderedMap.keys_perm h.mem_broadcasts
  have hmemory : m.listBroadcasts = m.broadcasts.keys.filterMap q.broadcasts.get? := by
    rw [TrackerStore.listBroadcasts, OrderedMap.values, OrderedMap.keys, List.map_map,
      List.filterMap_map, ← List.filterMap_eq_map']
    apply List.filterMap_congr
    intro e he
    change _ = q.broadcasts.get? e.1
    rw [← h.broadcasts, OrderedMap.get?_eq_some_iff.mpr he]
    rfl
  have hsqlite : q.broadcasts.values = q.broadcasts.keys.filterMap q.broadcasts.get? := by
    rw [OrderedMap.values, OrderedMap.keys, List.filterMap_map, ← List.filterMap_eq_map']
    apply List.filterMap_congr
    intro e he
    exact (OrderedMap.get?_eq_some_iff.mpr he).symm
  refine List.Perm.trans ?_ (List.perm_insertionSort _ _).symm
  rw [hmemory, hsqlite]
  exact hkeys.filterMap _

theorem getPeer (h : Interchangeable m q) (b : BroadcastId) (p : PeerId) :
    (m.getPeer b p).map Peer.bare = (q.getPeer b p).map Peer.bare := by
  rw [h.peers, SQLiteStore.getPeer, Option.map_map]
  rfl

/-- **Related stores answer every call alike.** -/
theorem perform (h : Interchangeable m q) (maxSegmentsPerPeer : ℕ) (t : Timestamp)
    (op : StoreOp) :
    Answers ((TrackerStore.backend maxSegmentsPerPeer).perform m t op)
      ((SQLiteStore.backend maxSegmentsPerPeer).perform q t op) := by
  cases op with
  | registerBroadcast registration => exact h.registerBroadcast t registration
  | listBroadcasts =>
      exact h.reading (Or.inr ⟨_, _, rfl, rfl, .broadcasts h.listBroadcasts_perm⟩)
  | getBroadcast id =>
      apply h.reading
      rcases h.requireBroadcast_cases id with ⟨hm, hq⟩ | ⟨state, -, hm, hq⟩
      · refine Or.inl ⟨broadcastNotFound id, ?_, hq⟩
        change (m.requireBroadcast id).map _ = _
        rw [hm]
        rfl
      · refine Or.inr ⟨state.broadcast, state.broadcast, ?_, hq, .refl _⟩
        change (m.requireBroadcast id).map _ = _
        rw [hm]
        rfl
  | unregisterBroadcast id => exact h.unregisterBroadcast id
  | joinPeer b request options => exact h.joinPeer t b request options
  | leavePeer b p => exact h.leavePeer b p
  | listPeers b => exact h.listPeers b
  | listPeersWithSegment b segment => exact h.listPeersWithSegment b segment
  | getPeer b p => exact h.reading (Or.inr ⟨_, _, rfl, rfl, .found (h.getPeer b p)⟩)
  | listPeerStats b => exact h.listPeerStats b
  | reportSegments b p segments replace => exact h.reportSegments t b p segments replace
  | applySegmentDelta b p added removed => exact h.applySegmentDelta t b p added removed
  | heartbeat b p heartbeat => exact h.heartbeat t b p heartbeat
  | reportStats b p stats => exact h.reportStats t b p stats
  | reportPeerFailure b p report => exact h.reportPeerFailure t b p report
  | removeStalePeers maxAgeMs => exact h.removeStalePeers t maxAgeMs
  | getBroadcastStats b =>
      apply h.reading
      rcases h.getBroadcastStats_cases b with ⟨e, hm, hq⟩ | ⟨totals, hm, hq⟩
      · exact Or.inl ⟨e, hm, hq⟩
      · exact Or.inr ⟨totals, totals, hm, hq, .refl _⟩
  | getGlobalStats =>
      refine h.reading (Or.inr ⟨_, _, rfl, rfl, ?_⟩)
      change SameValue (.globalTotals m.getGlobalStats.1 m.getGlobalStats.2) _
      rw [h.getGlobalStats_eq]
      exact .refl _

end Interchangeable

theorem Answers.next {m : TrackerStore} {q : SQLiteStore}
    {rm : Except StoreError (TrackerStore × StoreValue)}
    {rq : Except StoreError (SQLiteStore × StoreValue)} (h : Answers rm rq)
    (hrel : Interchangeable m q) : Interchangeable (stateAfter m rm) (stateAfter q rq) := by
  cases h with
  | refused e => exact hrel
  | done hstores hvalue => exact hstores

/-! ## Runs on one clock -/

/-- Both stores and the last clock reading. -/
structure BothStores where
  memory : TrackerStore
  sqlite : SQLiteStore
  clock : Timestamp

/-- What can be asked of two stores is the same. -/
structure SameView (m : TrackerStore) (q : SQLiteStore) : Prop where
  broadcasts : m.listBroadcasts.Perm q.listBroadcasts
  peers : ∀ b p, (m.getPeer b p).map Peer.bare = (q.getPeer b p).map Peer.bare
  counters : ∀ b p, m.liveStats b p = q.liveStats b p
  counted : ∀ b state, m.broadcasts.get? b = some state → q.countPeers b = state.peers.size
  stale : ∀ cutoff, (m.stalePeers cutoff).Perm (q.listStalePeers cutoff)
  broadcastStats : ∀ b, m.getBroadcastStats b = q.getBroadcastStats b
  globalStats : m.getGlobalStats = q.getGlobalStats
  holders : ∀ b segment xs ys, SameInventories m q → m.listPeers b (some segment) = .ok xs →
    q.listPeers b (some segment) = .ok ys → (xs.map Peer.bare).Perm (ys.map Peer.bare)

theorem Interchangeable.holders_perm {m : TrackerStore} {q : SQLiteStore}
    (h : Interchangeable m q) (hsame : SameInventories m q) {b : BroadcastId}
    {segment : SegmentId} {xs ys : List Peer} (hxs : m.listPeers b (some segment) = .ok xs)
    (hys : q.listPeers b (some segment) = .ok ys) : (xs.map Peer.bare).Perm (ys.map Peer.bare) := by
  unfold TrackerStore.listPeers at hxs
  unfold SQLiteStore.listPeers at hys
  rcases h.requireBroadcast_cases b with ⟨hm, -⟩ | ⟨state, hs, hm, hq⟩
  · rw [hm] at hxs
    exact absurd hxs (by simp [Except.map])
  · rw [hm] at hxs
    rw [hq] at hys
    obtain rfl := Except.ok.inj hxs
    obtain rfl := Except.ok.inj hys
    apply h.listPeers_perm hs
    intro p peerState row hf
    have hinventory := hsame b p
    rw [TrackerStore.getPeer, TrackerStore.peerState?_eq_some.mpr
      ⟨state, hf.getState, hf.getPeerState⟩, SQLiteStore.getPeer, hf.findPeer] at hinventory
    have hset : peerState.peer.segments.toFinset = (q.getSegments b p).toFinset :=
      Option.some.inj hinventory
    have hmem : segment ∈ peerState.peer.segments ↔ segment ∈ q.getSegments b p := by
      rw [← List.mem_toFinset, hset, List.mem_toFinset]
    exact decide_eq_decide.mpr hmem

theorem Interchangeable.sameView {m : TrackerStore} {q : SQLiteStore}
    (h : Interchangeable m q) : SameView m q where
  broadcasts := h.listBroadcasts_perm
  peers := h.getPeer
  counters := h.stats
  counted := fun _ _ hs => countPeers_eq_size h.isSome_findPeer hs
  stale := h.stalePeers_perm
  broadcastStats := by
    intro b
    rcases h.getBroadcastStats_cases b with ⟨e, hm, hq⟩ | ⟨totals, hm, hq⟩
    · rw [hm, hq]
    · rw [hm, hq]
  globalStats := h.getGlobalStats_eq
  holders := fun _ _ _ _ hsame hxs hys => h.holders_perm hsame hxs hys

/-! ## Clock readings in the records -/

/-- Every stored peer was last seen at a time with a property. -/
def TrackerStore.SeenAt (P : Timestamp → Prop) (s : TrackerStore) : Prop :=
  ∀ b p peerState, s.peerState? b p = some peerState → P peerState.peer.lastSeenAt

namespace TrackerStore

variable {P : Timestamp → Prop} {s s' : TrackerStore}

theorem SeenAt.updated (h : s.SeenAt P) {b : BroadcastId} {p : PeerId} {new : Option PeerState}
    (hs : s.PeerUpdated s' b p new)
    (hnew : ∀ peerState, new = some peerState → P peerState.peer.lastSeenAt) : s'.SeenAt P := by
  intro b' p' peerState hp
  rw [hs.peerState?] at hp
  split_ifs at hp with hbp
  · exact hnew peerState hp
  · exact h b' p' peerState hp

theorem SeenAt.retirePeers : ∀ {stale : List StalePeer} {s : TrackerStore}, s.SeenAt P →
    (s.retirePeers stale).SeenAt P := by
  intro stale s h b p peerState hp
  rw [peerState?_retirePeers] at hp
  split_ifs at hp
  exact h b p peerState hp

/-- A call stores its own clock reading, or leaves the times that were stored. -/
theorem SeenAt.effect {t : Timestamp} {op : StoreOp} (h : s.SeenAt P) (ht : P t)
    (heffect : s.CallEffect t op s') : s'.SeenAt P := by
  cases heffect with
  | kept => exact h
  | registered registration =>
      intro b p peerState hp
      rw [peerState?_registerBroadcast] at hp
      exact h b p peerState hp
  | unregistered id =>
      intro b p peerState hp
      obtain ⟨state, hs, hpeer⟩ := peerState?_eq_some.mp hp
      rw [OrderedMap.get?_delete] at hs
      split_ifs at hs
      exact h b p peerState (peerState?_eq_some.mpr ⟨state, hs, hpeer⟩)
  | left b p => exact h.retirePeers
  | swept maxAgeMs => exact h.retirePeers
  | joined hs =>
      apply h.updated (peerUpdated_setPeer hs _ _)
      rintro peerState heq
      obtain rfl := Option.some.inj heq
      exact ht
  | @written _ b p state old new failureConsensus htarget hs hp hseen hstats =>
      have hset : (s.setPeer b state p new).SeenAt P := by
        apply h.updated (peerUpdated_setPeer hs _ _)
        rintro peerState heq
        obtain rfl := Option.some.inj heq
        rcases hseen with hseen | hseen
        · rw [hseen]
          exact ht
        · rw [hseen]
          exact h b p old (peerState?_eq_some.mpr ⟨state, hs, hp⟩)
      exact hset

end TrackerStore

/-- Both stores after a list of calls. -/
def BothStores.after (maxSegmentsPerPeer : ℕ) (calls : List (Timestamp × StoreOp)) : BothStores :=
  ⟨calls.foldl (fun s call => (TrackerStore.backend maxSegmentsPerPeer).next s call.1 call.2)
      (.new maxSegmentsPerPeer),
    calls.foldl (fun s call => (SQLiteStore.backend maxSegmentsPerPeer).next s call.1 call.2)
      (.new maxSegmentsPerPeer),
    calls.foldl (fun _ call => call.1) 0⟩

/-- A peer joins, reports its counters, and joins again under another address. -/
def rejoiningPeer : List (Timestamp × StoreOp) :=
  [(0, .registerBroadcast ⟨"live", "https://origin/live.m3u8", none⟩),
    (1, .joinPeer "live" ⟨"p", "http://p", none, none⟩ ⟨some 1⟩),
    (2, .reportStats "live" "p" fun _ => .finite 5),
    (3, .joinPeer "live" ⟨"p", "http://q", some 7, none⟩ ⟨some 1⟩)]

end OpenStreamGrid
