import OpenStreamGrid.Tracker.StoreOperations

/-!
# Global totals

The memory store adds up its broadcasts one by one, the SQLite store sums whole
tables. Both come to the sum of the broadcasts' totals; for the tables this
needs that every row belongs to a registered broadcast.
-/

namespace OpenStreamGrid

namespace TrackerStoreBackend

variable {σ : Type} (T : TrackerStoreBackend σ)

/-- The peers a store counts for a broadcast, and none where it knows no broadcast. -/
def peersOf (s : σ) (b : BroadcastId) : ℕ :=
  ((T.getBroadcastStats s b).toOption.map TrafficTotals.peers).getD 0

/-- The counters a store shows for a broadcast, and zero where it knows none. -/
def statsOf (s : σ) (b : BroadcastId) : PeerTrafficStats :=
  ((T.getBroadcastStats s b).toOption.map TrafficTotals.stats).getD 0

/-- The global totals are the field-wise sum of the broadcasts' totals, and their
peer count is the number of stored peers. -/
structure SumsUp (s : σ) : Prop where
  totals : ∃ broadcasts : Finset BroadcastId,
    (∀ b, b ∈ broadcasts ↔ ∃ totals, T.getBroadcastStats s b = .ok totals) ∧
      T.getGlobalStats s = (broadcasts.card,
        ⟨∑ b ∈ broadcasts, T.peersOf s b, ∑ b ∈ broadcasts, T.statsOf s b⟩)
  peers : ∃ members : Finset (BroadcastId × PeerId),
    (∀ b p, (b, p) ∈ members ↔ (T.getPeer s b p).isSome) ∧
      (T.getGlobalStats s).2.peers = members.card

end TrackerStoreBackend

/-! ## The in-memory store -/

namespace TrackerStore

theorem getBroadcastStats_eq (s : TrackerStore) (b : BroadcastId) :
    (s.getBroadcastStats b).toOption = (s.broadcasts.get? b).map totalsFor := by
  unfold getBroadcastStats requireBroadcast
  cases s.broadcasts.get? b <;> rfl

theorem getBroadcastStats_isOk_iff {s : TrackerStore} {b : BroadcastId} :
    (∃ totals, s.getBroadcastStats b = .ok totals) ↔ b ∈ s.broadcasts := by
  rw [OrderedMap.mem_iff_isSome, ← Option.isSome_map (f := totalsFor), ← getBroadcastStats_eq,
    Option.isSome_iff_exists]
  simp only [toOption_eq_some]

theorem getGlobalStats_eq (s : TrackerStore) :
    s.getGlobalStats = (s.broadcasts.size,
      ⟨s.broadcasts.sumValues fun state => (totalsFor state).peers,
        s.broadcasts.sumValues fun state => (totalsFor state).stats⟩) := by
  have hfold : ∀ (l : List TrafficTotals) (a : TrafficTotals),
      l.foldl (fun totals t => (⟨totals.peers + t.peers,
          addPeerTrafficStats totals.stats t.stats⟩ : TrafficTotals)) a
        = ⟨a.peers + (l.map TrafficTotals.peers).sum, a.stats + (l.map TrafficTotals.stats).sum⟩ := by
    intro l
    induction l with
    | nil => intro a; simp
    | cons t rest ih =>
        intro a
        rw [List.foldl_cons, ih]
        simp [add_assoc]
  unfold getGlobalStats OrderedMap.sumValues
  rw [hfold]
  simp [List.map_map, Function.comp_def]

theorem length_allPeers (s : TrackerStore) :
    s.allPeers.length = s.broadcasts.sumValues fun state => (totalsFor state).peers := by
  unfold allPeers
  rw [List.length_flatMap, OrderedMap.sumValues_eq]
  simp only [List.length_map]
  rfl

theorem sumsUp (maxSegmentsPerPeer : ℕ) (s : TrackerStore) :
    (backend maxSegmentsPerPeer).SumsUp s where
  totals := by
    refine ⟨s.broadcasts.keys.toFinset, fun b => ?_, ?_⟩
    · rw [List.mem_toFinset]
      exact getBroadcastStats_isOk_iff.symm
    · change s.getGlobalStats = _
      rw [getGlobalStats_eq, OrderedMap.card_keys, OrderedMap.sumValues_eq_sum_keys,
        OrderedMap.sumValues_eq_sum_keys]
      simp only [TrackerStoreBackend.peersOf, TrackerStoreBackend.statsOf, backend,
        getBroadcastStats_eq, Option.map_map]
      rfl
  peers := by
    have hnodup : (s.allPeers.map fun e => (e.1.broadcastId, e.1.peerId)).Nodup := by
      have hmap : (s.allPeers.map fun e => (e.1.broadcastId, e.1.peerId))
          = (s.allPeers.map Prod.fst).map fun x => (x.broadcastId, x.peerId) := by
        rw [List.map_map]
        rfl
      rw [hmap]
      refine s.nodup_allPeers.map ?_
      rintro ⟨b, p⟩ ⟨b', p'⟩ heq
      obtain ⟨rfl, rfl⟩ := Prod.mk.inj heq
      rfl
    refine ⟨(s.allPeers.map fun e => (e.1.broadcastId, e.1.peerId)).toFinset, fun b p => ?_, ?_⟩
    · change _ ↔ (s.getPeer b p).isSome
      rw [List.mem_toFinset, List.mem_map, getPeer, Option.isSome_map, Option.isSome_iff_exists]
      constructor
      · rintro ⟨⟨x, peerState⟩, hmem, heq⟩
        obtain ⟨rfl, rfl⟩ := Prod.mk.inj heq
        exact ⟨peerState, mem_allPeers.mp hmem⟩
      · rintro ⟨peerState, hp⟩
        exact ⟨(⟨b, p⟩, peerState), mem_allPeers.mpr hp, rfl⟩
    · change s.getGlobalStats.2.peers = _
      rw [List.toFinset_card_of_nodup hnodup, List.length_map, length_allPeers, getGlobalStats_eq]

end TrackerStore

/-! ## The SQLite store -/

namespace SQLiteStore

/-- Every row belongs to a registered broadcast. -/
structure Owned (s : SQLiteStore) : Prop where
  peers : ∀ key, key ∈ s.peers → key.1 ∈ s.broadcasts
  peerStats : ∀ key, key ∈ s.peerStats → key.1 ∈ s.broadcasts
  retiredPeerStats : ∀ b, b ∈ s.retiredPeerStats → b ∈ s.broadcasts

theorem requireBroadcast_isOk_iff {s : SQLiteStore} {b : BroadcastId} :
    (∃ broadcast, s.requireBroadcast b = .ok broadcast) ↔ b ∈ s.broadcasts := by
  simp only [requireBroadcast_ok]
  rw [OrderedMap.mem_iff_isSome, Option.isSome_iff_exists]

/-- What a broadcast's two tables add up to. -/
theorem getBroadcastStats_eq (s : SQLiteStore) {b : BroadcastId} (hb : b ∈ s.broadcasts) :
    s.getBroadcastStats b = .ok ⟨s.countPeers b,
      (s.retiredPeerStats.get? b).getD 0
        + ∑ key ∈ s.peerStats.keys.toFinset with key.1 = b, (s.peerStats.get? key).getD 0⟩ := by
  obtain ⟨broadcast, hok⟩ := requireBroadcast_isOk_iff.mpr hb
  obtain ⟨totals, htotals⟩ : ∃ totals, s.getBroadcastStats b = .ok totals := by
    unfold getBroadcastStats
    rw [hok]
    exact ⟨_, rfl⟩
  have hstats := getBroadcastStats_stats htotals
  rw [OrderedMap.sum_entries_filter s.peerStats fun key => key.1 = b] at hstats
  have hpeers : totals.peers = s.countPeers b := by
    unfold getBroadcastStats at htotals
    rw [hok] at htotals
    exact congrArg TrafficTotals.peers (Except.ok.inj htotals).symm
  rw [htotals, ← hpeers]
  congr 1
  exact congrArg (TrafficTotals.mk totals.peers) hstats

theorem getBroadcastStats_isOk_iff {s : SQLiteStore} {b : BroadcastId} :
    (∃ totals, s.getBroadcastStats b = .ok totals) ↔ b ∈ s.broadcasts := by
  constructor
  · rintro ⟨totals, h⟩
    rw [← requireBroadcast_isOk_iff]
    unfold getBroadcastStats at h
    cases hb : s.requireBroadcast b with
    | error e => simp [hb, Except.map] at h
    | ok broadcast => exact ⟨broadcast, rfl⟩
  · intro hb
    exact ⟨_, s.getBroadcastStats_eq hb⟩

theorem countPeers_eq_card (s : SQLiteStore) (b : BroadcastId) :
    s.countPeers b = (s.peers.keys.toFinset.filter fun key => key.1 = b).card := by
  have hfilter : (s.peers.keys.toFinset.filter fun key => key.1 = b)
      = (s.peers.keys.filter fun key => decide (key.1 = b)).toFinset := by
    ext key
    simp
  have hnodup : (s.peers.keys.filter fun key => decide (key.1 = b)).Nodup :=
    List.Nodup.filter _ s.peers.nodupKeys
  rw [hfilter, List.toFinset_card_of_nodup hnodup, countPeers, List.countP_eq_length_filter]

theorem sumsUp (maxSegmentsPerPeer : ℕ) {s : SQLiteStore} (h : s.Owned) :
    (backend maxSegmentsPerPeer).SumsUp s where
  totals := by
    refine ⟨s.broadcasts.keys.toFinset, fun b => ?_, ?_⟩
    · rw [List.mem_toFinset]
      exact getBroadcastStats_isOk_iff.symm
    have hok : ∀ b ∈ s.broadcasts.keys.toFinset,
        (backend maxSegmentsPerPeer).getBroadcastStats s b = .ok _ :=
      fun b hb => s.getBroadcastStats_eq (List.mem_toFinset.mp hb)
    have hpeers : s.peers.size
        = ∑ b ∈ s.broadcasts.keys.toFinset, (backend maxSegmentsPerPeer).peersOf s b := by
      rw [← OrderedMap.card_keys,
        Finset.card_eq_sum_card_fiberwise (f := Prod.fst) (t := s.broadcasts.keys.toFinset)]
      · refine Finset.sum_congr rfl fun b hb => ?_
        rw [TrackerStoreBackend.peersOf, hok b hb, ← countPeers_eq_card]
        rfl
      · intro key hkey
        exact List.mem_toFinset.mpr (h.peers key (List.mem_toFinset.mp hkey))
    -- Each table is summed broadcast by broadcast.
    have hlive : s.peerStats.values.sum = ∑ b ∈ s.broadcasts.keys.toFinset,
        ∑ key ∈ s.peerStats.keys.toFinset with key.1 = b, (s.peerStats.get? key).getD 0 := by
      rw [Finset.sum_fiberwise_of_maps_to]
      · have := s.peerStats.sumValues_eq_sum_keys id
        simpa [OrderedMap.sumValues] using this
      · intro key hkey
        exact List.mem_toFinset.mpr (h.peerStats key (List.mem_toFinset.mp hkey))
    have hretired : s.retiredPeerStats.values.sum
        = ∑ b ∈ s.broadcasts.keys.toFinset, (s.retiredPeerStats.get? b).getD 0 := by
      have hkeys := s.retiredPeerStats.sumValues_eq_sum_keys id
      simp only [OrderedMap.sumValues, List.map_id_fun, id_eq, Option.map_id_fun] at hkeys
      rw [hkeys]
      refine Finset.sum_subset ?_ ?_
      · intro b hb
        exact List.mem_toFinset.mpr (h.retiredPeerStats b (List.mem_toFinset.mp hb))
      · intro b _ hb
        rw [OrderedMap.get?_eq_none_iff.mpr fun hmem => hb (List.mem_toFinset.mpr hmem)]
        rfl
    change s.getGlobalStats = _
    unfold getGlobalStats
    rw [OrderedMap.card_keys, hpeers, List.sum_append, hlive, hretired, ← Finset.sum_add_distrib]
    congr 2
    refine Finset.sum_congr rfl fun b hb => ?_
    rw [TrackerStoreBackend.statsOf, hok b hb]
    exact add_comm _ _
  peers := by
    refine ⟨s.peers.keys.toFinset, fun b p => ?_, ?_⟩
    · change _ ↔ (s.getPeer b p).isSome
      rw [List.mem_toFinset, ← OrderedMap.mem_iff_mem_keys, OrderedMap.mem_iff_isSome, getPeer,
        Option.isSome_map]
      rfl
    · rw [OrderedMap.card_keys]
      rfl

end SQLiteStore

end OpenStreamGrid
