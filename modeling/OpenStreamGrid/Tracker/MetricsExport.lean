import Mathlib.Algebra.BigOperators.Pi
import OpenStreamGrid.Tracker.TrackerMetrics

/-!
# What the exported counters lose

What is due of a counter, exported or not, equals what the removed broadcasts
had plus what the stored ones have, for as long as no step skips a snapshot it
would have needed. The laws of the store that this rests on are proved of the
memory store and carried over to the SQLite store.
-/

namespace OpenStreamGrid

/-! ## What a store owes its metrics -/

namespace TrackerStoreBackend

variable {σ : Type} (T : TrackerStoreBackend σ)
  (counters : σ → BroadcastId → PeerId → Option PeerTrafficStats)

/-- How the broadcasts' totals change with a call; `counters` reads the counters
stored for a peer. -/
structure CountsTraffic (s : σ) : Prop where
  sumsUp : T.SumsUp s
  kept : ∀ t op, !op.synchronizedElsewhere → ∀ b, T.statsOf (T.next s t op) b = T.statsOf s b
  reported : ∀ t b p stats s', T.reportStats s t b p stats = .ok s' →
    ∃ previous, counters s b p = some previous ∧
      T.statsOf s' b + previous = T.statsOf s b + sanitizePeerTrafficStats stats ∧
      ∀ b', b' ≠ b → T.statsOf s' b' = T.statsOf s b'
  unregistered : ∀ b s', T.unregisterBroadcast s b = .ok s' →
    T.statsOf s' b = 0 ∧ ∀ b', b' ≠ b → T.statsOf s' b' = T.statsOf s b'
  swept : ∀ t (maxAgeMs : ℕ),
    (∀ broadcast ∈ T.listBroadcasts (T.removeStalePeers s t maxAgeMs).1,
      broadcast ∈ T.listBroadcasts s) ∧
    ∀ b, T.statsOf (T.removeStalePeers s t maxAgeMs).1 b = T.statsOf s b

variable {T} {s s' : σ}

theorem statsOf_eq {s : σ} {b : BroadcastId} :
    T.statsOf s b = ((T.shownStats s b).toOption).getD 0 := by
  unfold statsOf shownStats
  cases T.getBroadcastStats s b <;> rfl

/-- A broadcast that is not stored has no traffic. -/
theorem statsOf_of_not_stored {b : BroadcastId}
    (h : ¬ ∃ totals, T.getBroadcastStats s b = .ok totals) : T.statsOf s b = 0 := by
  unfold statsOf
  cases hb : T.getBroadcastStats s b with
  | error e => rfl
  | ok totals => exact absurd ⟨totals, hb⟩ h

/-- The global traffic is the sum over any broadcasts that include the stored ones. -/
theorem SumsUp.globalTraffic_eq (h : T.SumsUp s) : ∃ stored : Finset BroadcastId,
    (∀ b, b ∈ stored ↔ ∃ totals, T.getBroadcastStats s b = .ok totals) ∧
      ∀ broadcasts, stored ⊆ broadcasts →
        T.globalTraffic s = ∑ b ∈ broadcasts, T.statsOf s b := by
  obtain ⟨stored, hstored, htotals⟩ := h.totals
  refine ⟨stored, hstored, fun broadcasts hsub => ?_⟩
  have hsum : T.globalTraffic s = ∑ b ∈ stored, T.statsOf s b := by
    unfold globalTraffic
    rw [htotals]
  rw [hsum]
  refine Finset.sum_subset hsub fun b _ hb => ?_
  exact statsOf_of_not_stored fun hok => hb ((hstored b).mpr hok)

/-- Where one broadcast's totals change, the global traffic changes by as much. -/
theorem SumsUp.globalTraffic_update (h : T.SumsUp s) (h' : T.SumsUp s') {b : BroadcastId}
    (hothers : ∀ b', b' ≠ b → T.statsOf s' b' = T.statsOf s b') :
    T.globalTraffic s' + T.statsOf s b = T.globalTraffic s + T.statsOf s' b := by
  obtain ⟨stored, -, hs⟩ := h.globalTraffic_eq
  obtain ⟨stored', -, hs'⟩ := h'.globalTraffic_eq
  have hb : b ∈ insert b (stored ∪ stored') := Finset.mem_insert_self _ _
  have hrest : ∑ b' ∈ (insert b (stored ∪ stored')).erase b, T.statsOf s' b'
      = ∑ b' ∈ (insert b (stored ∪ stored')).erase b, T.statsOf s b' :=
    Finset.sum_congr rfl fun b' hb' => hothers b' (Finset.ne_of_mem_erase hb')
  rw [hs (insert b (stored ∪ stored')) fun x hx => by simp [hx],
    hs' (insert b (stored ∪ stored')) fun x hx => by simp [hx],
    ← Finset.add_sum_erase _ _ hb, ← Finset.add_sum_erase _ _ hb, hrest]
  abel

theorem SumsUp.globalTraffic_congr (h : T.SumsUp s) (h' : T.SumsUp s')
    (hall : ∀ b, T.statsOf s' b = T.statsOf s b) : T.globalTraffic s' = T.globalTraffic s := by
  have hupdate := h.globalTraffic_update (b := "") h' fun b _ => hall b
  rw [hall] at hupdate
  exact add_right_cancel hupdate

end TrackerStoreBackend

/-! ## The in-memory store -/

namespace TrackerStore

variable {maxSegmentsPerPeer : ℕ} {s : TrackerStore}

theorem statsOf_eq_total (s : TrackerStore) (b : BroadcastId) :
    (backend maxSegmentsPerPeer).statsOf s b = (s.total b).getD 0 := by
  rw [TrackerStoreBackend.statsOf_eq, shownStats_eq]
  cases s.total b <;> rfl

/-- A registration creates a broadcast without traffic, or keeps what is stored. -/
theorem total_registerBroadcast (s : TrackerStore) (t : Timestamp)
    (registration : BroadcastRegistration) (b : BroadcastId) :
    ((s.registerBroadcast t registration).1.total b).getD 0 = (s.total b).getD 0 := by
  unfold registerBroadcast total
  cases hs : s.broadcasts.get? registration.id with
  | none =>
      show ((OrderedMap.get? (s.broadcasts.set _ _) b).map _).getD 0 = _
      rw [OrderedMap.get?_set]
      split_ifs with hb
      · rw [hb, hs]
        rfl
      · rfl
  | some state =>
      show ((OrderedMap.get? (s.broadcasts.set _ _) b).map _).getD 0 = _
      rw [OrderedMap.get?_set]
      split_ifs with hb
      · rw [hb, hs]
        rfl
      · rfl

theorem total_unregisterBroadcast {s s' : TrackerStore} {id : BroadcastId}
    (h : s.unregisterBroadcast id = .ok s') (b : BroadcastId) :
    s'.total b = if b = id then none else s.total b := by
  unfold unregisterBroadcast at h
  split_ifs at h
  obtain rfl := Except.ok.inj h
  unfold total
  rw [OrderedMap.get?_delete]
  split_ifs <;> rfl

/-- A sweep lists no broadcast that was not listed. -/
theorem mem_listBroadcasts_retirePeers {stale : List StalePeer} {broadcast : Broadcast}
    (h : broadcast ∈ (s.retirePeers stale).listBroadcasts) : broadcast ∈ s.listBroadcasts := by
  obtain ⟨state, hmem, rfl⟩ := List.mem_map.mp h
  obtain ⟨b, hb⟩ := OrderedMap.mem_values_iff.mp hmem
  have hsame := broadcast_retirePeers b stale s
  rw [hb, Option.map_some] at hsame
  obtain ⟨old, hold, heq⟩ := Option.map_eq_some_iff.mp hsame.symm
  exact List.mem_map.mpr ⟨old, OrderedMap.mem_values_iff.mpr ⟨b, hold⟩, heq⟩

theorem countsTraffic (maxSegmentsPerPeer : ℕ) (s : TrackerStore) :
    (backend maxSegmentsPerPeer).CountsTraffic liveStats s where
  sumsUp := sumsUp maxSegmentsPerPeer s
  kept := by
    intro t op hop b
    cases op with
    | registerBroadcast registration =>
        rw [statsOf_eq_total, statsOf_eq_total]
        exact s.total_registerBroadcast t registration b
    | unregisterBroadcast id => exact absurd hop Bool.false_ne_true
    | reportStats b p stats => exact absurd hop Bool.false_ne_true
    | removeStalePeers maxAgeMs => exact absurd hop Bool.false_ne_true
    | _ =>
        rw [statsOf_eq_total, statsOf_eq_total, (s.next_effect maxSegmentsPerPeer t _).total rfl b]
  reported := by
    intro t b p stats s' hok
    obtain ⟨⟨previous, before, after, hprevious, hbefore, hafter, heq⟩, hothers⟩ :=
      (conservesTraffic maxSegmentsPerPeer s).reported t b p stats s' hok
    refine ⟨previous, hprevious, ?_, fun b' hb => ?_⟩
    · rw [TrackerStoreBackend.statsOf_eq, TrackerStoreBackend.statsOf_eq, hbefore, hafter]
      exact heq
    · rw [TrackerStoreBackend.statsOf_eq, TrackerStoreBackend.statsOf_eq, hothers b' hb]
  unregistered := by
    intro b s' hok
    have htotal := total_unregisterBroadcast hok
    refine ⟨?_, fun b' hb => ?_⟩
    · rw [statsOf_eq_total, htotal, if_pos rfl]
      rfl
    · rw [statsOf_eq_total, statsOf_eq_total, htotal, if_neg hb]
  swept := by
    intro t maxAgeMs
    change (∀ broadcast ∈ (s.removeStalePeers t maxAgeMs).1.listBroadcasts,
      broadcast ∈ s.listBroadcasts) ∧ ∀ b, (backend maxSegmentsPerPeer).statsOf
        (s.removeStalePeers t maxAgeMs).1 b = (backend maxSegmentsPerPeer).statsOf s b
    rw [removeStalePeers_eq]
    refine ⟨fun broadcast => mem_listBroadcasts_retirePeers, fun b => ?_⟩
    rw [statsOf_eq_total, statsOf_eq_total, total_retirePeers]

end TrackerStore

/-! ## The SQLite store -/

theorem Interchangeable.statsOf_eq {m : TrackerStore} {q : SQLiteStore}
    (h : Interchangeable m q) (maxSegmentsPerPeer : ℕ) (b : BroadcastId) :
    (TrackerStore.backend maxSegmentsPerPeer).statsOf m b
      = (SQLiteStore.backend maxSegmentsPerPeer).statsOf q b := by
  rw [TrackerStoreBackend.statsOf_eq, TrackerStoreBackend.statsOf_eq, h.shownStats_eq]

theorem Interchangeable.countsTraffic {m : TrackerStore} {q : SQLiteStore}
    (h : Interchangeable m q) (maxSegmentsPerPeer : ℕ) :
    (SQLiteStore.backend maxSegmentsPerPeer).CountsTraffic SQLiteStore.liveStats q where
  sumsUp := SQLiteStore.sumsUp maxSegmentsPerPeer h.owned
  kept := by
    intro t op hop b
    have hnext := (h.perform maxSegmentsPerPeer t op).next h
    have hmemory := (TrackerStore.countsTraffic maxSegmentsPerPeer m).kept t op hop b
    rw [h.statsOf_eq] at hmemory
    exact (hnext.statsOf_eq maxSegmentsPerPeer b).symm.trans hmemory
  reported := by
    intro t b p stats q' hok
    obtain ⟨⟨previous, before, after, hprevious, hbefore, hafter, heq⟩, hothers⟩ :=
      (h.conservesTraffic maxSegmentsPerPeer).reported t b p stats q' hok
    refine ⟨previous, hprevious, ?_, fun b' hb => ?_⟩
    · rw [TrackerStoreBackend.statsOf_eq, TrackerStoreBackend.statsOf_eq, hbefore, hafter]
      exact heq
    · rw [TrackerStoreBackend.statsOf_eq, TrackerStoreBackend.statsOf_eq, hothers b' hb]
  unregistered := by
    intro b q' hok
    have hanswers := h.unregisterBroadcast b
    change q.unregisterBroadcast b = .ok q' at hok
    rw [hok] at hanswers
    cases hm : m.unregisterBroadcast b with
    | error e =>
        rw [hm] at hanswers
        cases hanswers
    | ok m' =>
        rw [hm] at hanswers
        have hnext : Interchangeable m' q' := by
          cases hanswers with
          | done hstores _ => exact hstores
        obtain ⟨hzero, hothers⟩ :=
          (TrackerStore.countsTraffic maxSegmentsPerPeer m).unregistered b m' hm
        rw [hnext.statsOf_eq] at hzero
        refine ⟨hzero, fun b' hb => ?_⟩
        rw [← hnext.statsOf_eq, ← h.statsOf_eq]
        exact hothers b' hb
  swept := by
    intro t maxAgeMs
    have hnext : Interchangeable (m.removeStalePeers t maxAgeMs).1
        (q.removeStalePeers t maxAgeMs).1 :=
      (h.perform maxSegmentsPerPeer t (.removeStalePeers maxAgeMs)).next h
    obtain ⟨hlisted, hstats⟩ :=
      (TrackerStore.countsTraffic maxSegmentsPerPeer m).swept t maxAgeMs
    refine ⟨fun broadcast hmem => ?_, fun b => ?_⟩
    · apply h.listBroadcasts_perm.mem_iff.mp
      apply hlisted
      exact hnext.listBroadcasts_perm.mem_iff.mpr hmem
    · exact (hnext.statsOf_eq maxSegmentsPerPeer b).symm.trans
        ((hstats b).trans (h.statsOf_eq maxSegmentsPerPeer b))

/-! ## Steps and runs -/

namespace TrackerStoreBackend

variable {σ : Type} {T : TrackerStoreBackend σ}
  {counters : σ → BroadcastId → PeerId → Option PeerTrafficStats}

/-- What was noted of a counter at the removals. -/
def removedTraffic (s : MetricsState σ) (c : ExportedCounter) : ℕ :=
  (s.removed.map fun x => x.2 c.key).sum

/-- Exported or due, nothing of a counter is missing. -/
structure Accounted (T : TrackerStoreBackend σ) (s : MetricsState σ) : Prop where
  reachable : T.system.Reachable (fun _ _ => True) s.store
  due : ∀ c, (s.metrics.counter c).due (T.globalTraffic s.store c.key)
    = removedTraffic s c + T.globalTraffic s.store c.key

theorem reachable_next {s : σ} (h : T.system.Reachable (fun _ _ => True) s) (t : Timestamp)
    (op : StoreOp) : T.system.Reachable (fun _ _ => True) (T.next s t op) :=
  .step h trivial (rfl : T.system.step s (t, op) = _)

theorem reachable_reportStats {s s' : σ} (h : T.system.Reachable (fun _ _ => True) s)
    {t : Timestamp} {b : BroadcastId} {p : PeerId} {stats : TrafficRecord JsNumber}
    (hok : T.reportStats s t b p stats = .ok s') : T.system.Reachable (fun _ _ => True) s' := by
  have hnext : T.system.Reachable (fun _ _ => True)
      (stateAfter s (writing (T.reportStats s t b p stats))) :=
    reachable_next h t (.reportStats b p stats)
  rw [hok] at hnext
  exact hnext

theorem reachable_unregisterBroadcast {s s' : σ} (h : T.system.Reachable (fun _ _ => True) s)
    {b : BroadcastId} (hok : T.unregisterBroadcast s b = .ok s') :
    T.system.Reachable (fun _ _ => True) s' := by
  have hnext : T.system.Reachable (fun _ _ => True)
      (stateAfter s (writing (T.unregisterBroadcast s b))) :=
    reachable_next h 0 (.unregisterBroadcast b)
  rw [hok] at hnext
  exact hnext

theorem reachable_removeStalePeers {s : σ} (h : T.system.Reachable (fun _ _ => True) s)
    (t : Timestamp) (maxAgeMs : ℕ) :
    T.system.Reachable (fun _ _ => True) (T.removeStalePeers s t maxAgeMs).1 :=
  reachable_next h t (.removeStalePeers maxAgeMs)

namespace Accounted

variable {s : MetricsState σ}

theorem new : Accounted T ⟨T.new, .new, []⟩ where
  reachable := .init rfl
  due := by
    intro c
    show 0 + (T.globalTraffic T.new c.key - 0) = 0 + T.globalTraffic T.new c.key
    rw [Nat.sub_zero]

theorem synchronize (h : Accounted T s) : Accounted T (T.synchronize s) where
  reachable := h.reachable
  due := by
    intro c
    show ((s.metrics.counter c).snapshot (T.globalTraffic s.store c.key)).due
      (T.globalTraffic s.store c.key) = removedTraffic s c + T.globalTraffic s.store c.key
    rw [SnapshotCounter.due_snapshot]
    exact h.due c

/-- A call that leaves the totals alone. -/
theorem of_statsOf (h : Accounted T s)
    (hlaws : ∀ s, T.system.Reachable (fun _ _ => True) s → T.CountsTraffic counters s) {store : σ}
    (hreach : T.system.Reachable (fun _ _ => True) store)
    (hsame : ∀ b, T.statsOf store b = T.statsOf s.store b) :
    Accounted T { s with store } where
  reachable := hreach
  due := by
    intro c
    have hglobal : T.globalTraffic store = T.globalTraffic s.store :=
      (hlaws _ h.reachable).sumsUp.globalTraffic_congr (hlaws _ hreach).sumsUp hsame
    show (s.metrics.counter c).due (T.globalTraffic store c.key)
      = removedTraffic s c + T.globalTraffic store c.key
    rw [hglobal]
    exact h.due c

/-- A stats report, before the synchronization it may bring. -/
theorem report (h : Accounted T s)
    (hlaws : ∀ s, T.system.Reachable (fun _ _ => True) s → T.CountsTraffic counters s)
    {t : Timestamp} {b : BroadcastId} {p : PeerId} {stats : TrafficRecord JsNumber} {store : σ}
    (hok : T.reportStats s.store t b p stats = .ok store)
    (hgrow : ∀ previous, counters s.store b p = some previous →
      previous ≤ sanitizePeerTrafficStats stats)
    (hcover : ∀ c : ExportedCounter, ∀ previous, counters s.store b p = some previous →
      previous c.key < sanitizePeerTrafficStats stats c.key →
        s.metrics.lastReportedTraffic c ≤ T.globalTraffic s.store c.key) :
    Accounted T { s with store } := by
  have hreach := reachable_reportStats h.reachable hok
  obtain ⟨previous, hprevious, htotal, hothers⟩ :=
    (hlaws _ h.reachable).reported t b p stats store hok
  have hupdate := (hlaws _ h.reachable).sumsUp.globalTraffic_update (hlaws _ hreach).sumsUp hothers
  refine ⟨hreach, fun c => ?_⟩
  -- The global total gains what the report adds to the stored counter.
  have hle : previous c.key ≤ sanitizePeerTrafficStats stats c.key := hgrow previous hprevious c.key
  have hgain : T.globalTraffic store c.key = T.globalTraffic s.store c.key
      + (sanitizePeerTrafficStats stats c.key - previous c.key) := by
    have hkey := congrFun hupdate c.key
    have htotalKey := congrFun htotal c.key
    simp only [Pi.add_apply] at hkey htotalKey
    omega
  show (s.metrics.counter c).due (T.globalTraffic store c.key)
    = removedTraffic s c + T.globalTraffic store c.key
  rw [SnapshotCounter.due_gain _ hgain fun hpos =>
    hcover c previous hprevious (Nat.lt_of_sub_pos hpos), h.due c, hgain, Nat.add_assoc]

/-- What a removal leaves, where the latest synchronization has seen its traffic. -/
structure Removal (T : TrackerStoreBackend σ) (s s' : MetricsState σ) : Prop where
  metrics : s'.metrics = s.metrics
  globalTraffic : ∀ c : ExportedCounter,
    T.globalTraffic s'.store c.key ≤ T.globalTraffic s.store c.key
  statsOf : ∀ b, T.statsOf s'.store b ≤ T.statsOf s.store b

theorem removeBroadcast (h : Accounted T s)
    (hlaws : ∀ s, T.system.Reachable (fun _ _ => True) s → T.CountsTraffic counters s)
    {id : BroadcastId} {s' : MetricsState σ} (hremove : T.removeBroadcast s id = some s')
    (hcover : ∀ c : ExportedCounter, 0 < T.statsOf s.store id c.key →
      T.globalTraffic s.store c.key ≤ s.metrics.lastReportedTraffic c) :
    Accounted T s' ∧ Removal T s s' := by
  unfold TrackerStoreBackend.removeBroadcast at hremove
  cases hok : T.unregisterBroadcast s.store id with
  | error e => simp [hok] at hremove
  | ok store =>
      rw [hok] at hremove
      obtain rfl := Option.some.inj hremove
      have hreach := reachable_unregisterBroadcast h.reachable hok
      obtain ⟨hzero, hothers⟩ := (hlaws _ h.reachable).unregistered id store hok
      have hupdate :=
        (hlaws _ h.reachable).sumsUp.globalTraffic_update (hlaws _ hreach).sumsUp hothers
      rw [hzero, add_zero] at hupdate
      have hfall : ∀ c : ExportedCounter, T.globalTraffic store c.key + T.statsOf s.store id c.key
          = T.globalTraffic s.store c.key := fun c => congrFun hupdate c.key
      refine ⟨⟨hreach, fun c => ?_⟩, rfl, fun c => ?_, fun b => ?_⟩
      · have hremoved : removedTraffic
              { s with store, removed := s.removed ++ [(id, T.statsOf s.store id)] } c
            = removedTraffic s c + T.statsOf s.store id c.key := by
          unfold removedTraffic
          rw [List.map_append, List.sum_append, List.map_singleton, List.sum_singleton]
        show (s.metrics.counter c).due (T.globalTraffic store c.key) = _ + T.globalTraffic store c.key
        rw [SnapshotCounter.due_fall _ (hfall c) (hcover c), h.due c, hremoved, ← hfall c]
        omega
      · exact Nat.le.intro (hfall c)
      · show T.statsOf store b ≤ T.statsOf s.store b
        by_cases hb : b = id
        · rw [hb, hzero]
          exact fun _ => Nat.zero_le _
        · exact le_of_eq (hothers b hb)

/-- The sweep's loop: a removal neither raises a total nor takes a snapshot, so
what was covered before it is covered after it. -/
theorem removeExpired
    (hlaws : ∀ s, T.system.Reachable (fun _ _ => True) s → T.CountsTraffic counters s) :
    ∀ {expired : List Broadcast} {s : MetricsState σ}, Accounted T s →
      (∀ c : ExportedCounter, ∀ broadcast ∈ expired, 0 < T.statsOf s.store broadcast.id c.key →
        T.globalTraffic s.store c.key ≤ s.metrics.lastReportedTraffic c) →
      Accounted T (T.removeExpired s expired) := by
  intro expired
  induction expired with
  | nil => intro s h _; exact h
  | cons broadcast rest ih =>
      intro s h hcover
      rw [TrackerStoreBackend.removeExpired]
      cases hremove : T.removeBroadcast s broadcast.id with
      | none => exact h
      | some next =>
          obtain ⟨hnext, hremoval⟩ := h.removeBroadcast hlaws hremove fun c =>
            hcover c broadcast List.mem_cons_self
          refine ih hnext fun c other hother hpos => ?_
          have hlast := hcover c other (List.mem_cons_of_mem _ hother)
            (lt_of_lt_of_le hpos (hremoval.statsOf other.id c.key))
          rw [hremoval.metrics]
          exact (hremoval.globalTraffic c).trans hlast

/-- **One step keeps the account** where no counter falls and no snapshot is missed. -/
theorem step (h : Accounted T s)
    (hlaws : ∀ s, T.system.Reachable (fun _ _ => True) s → T.CountsTraffic counters s)
    {stalePeerMs : ℕ} {dateParse : String → Option Timestamp} {e : MetricsEvent}
    {s' : MetricsState σ} (hgrow : ReportsGrow counters s e)
    (hcover : T.NothingSkipped counters dateParse s e)
    (hstep : T.metricsStep stalePeerMs dateParse s e = some s') : Accounted T s' := by
  cases e with
  | call t op =>
      simp only [metricsStep] at hstep
      split_ifs at hstep with hop
      obtain rfl := Option.some.inj hstep
      exact h.of_statsOf hlaws (reachable_next h.reachable t op)
        ((hlaws _ h.reachable).kept t op (by simpa using hop))
  | restStats t b p stats =>
      simp only [metricsStep] at hstep
      cases hok : T.reportStats s.store t b p stats with
      | error e =>
          rw [hok] at hstep
          exact Option.some.inj hstep ▸ h
      | ok store =>
          rw [hok] at hstep
          exact Option.some.inj hstep ▸ (h.report hlaws hok hgrow hcover).synchronize
  | webSocketStats t b p stats =>
      simp only [metricsStep] at hstep
      cases hok : T.reportStats s.store t b p stats with
      | error e =>
          rw [hok] at hstep
          exact Option.some.inj hstep ▸ h
      | ok store =>
          rw [hok] at hstep
          exact Option.some.inj hstep ▸ h.report hlaws hok hgrow hcover
  | deleteBroadcast id =>
      simp only [metricsStep] at hstep
      cases hremove : T.removeBroadcast (T.synchronize s) id with
      | none =>
          rw [hremove] at hstep
          exact Option.some.inj hstep ▸ h.synchronize
      | some next =>
          rw [hremove] at hstep
          -- The synchronization before the removal covers all of its traffic.
          obtain ⟨hnext, -⟩ := h.synchronize.removeBroadcast hlaws hremove fun _ _ => le_rfl
          exact Option.some.inj hstep ▸ hnext.synchronize
  | removeStalePeers t nowMs =>
      obtain rfl := Option.some.inj hstep
      obtain ⟨hlisted, hstats⟩ := (hlaws _ h.reachable).swept t stalePeerMs
      have hreach := reachable_removeStalePeers h.reachable t stalePeerMs
      have hglobal := (hlaws _ h.reachable).sumsUp.globalTraffic_congr (hlaws _ hreach).sumsUp hstats
      apply removeExpired hlaws (h.of_statsOf hlaws hreach hstats)
      intro c broadcast hmem hpos
      obtain ⟨hlist, hexpired⟩ := List.mem_filter.mp hmem
      show T.globalTraffic (T.removeStalePeers s.store t stalePeerMs).1 c.key ≤ _
      rw [hglobal]
      exact hcover c broadcast (hlisted broadcast hlist) hexpired (hstats broadcast.id ▸ hpos)
  | scrape =>
      obtain rfl := Option.some.inj hstep
      exact h.synchronize

/-- An account that is complete shows in a scrape. -/
theorem losesNothing (h : Accounted T s)
    (hlaws : ∀ s, T.system.Reachable (fun _ _ => True) s → T.CountsTraffic counters s) :
    T.LosesNothing s := by
  obtain ⟨stored, hstored, hsum⟩ := (hlaws _ h.reachable).sumsUp.globalTraffic_eq
  refine ⟨stored, hstored, ?_⟩
  rw [TrackerMetrics.render_samples]
  refine List.map_congr_left fun c _ => ?_
  rw [h.due c, hsum stored (Finset.Subset.refl _), Finset.sum_apply]
  rfl

end Accounted

/-- **In a run that misses no snapshot, every scrape shows all traffic.** -/
theorem losesNothing_of_reachable
    (hlaws : ∀ s, T.system.Reachable (fun _ _ => True) s → T.CountsTraffic counters s)
    {stalePeerMs : ℕ} {dateParse : String → Option Timestamp} {s : MetricsState σ}
    (hr : (T.metricsSystem stalePeerMs dateParse).Reachable
      (fun s e => ReportsGrow counters s e ∧ T.NothingSkipped counters dateParse s e) s) :
    T.LosesNothing s := by
  refine Accounted.losesNothing (hr.invariant (Accounted T) ?_ ?_) hlaws
  · rintro s rfl
    exact .new
  · intro s e s' h hok hstep
    exact h.step hlaws hok.1 hok.2 hstep

end TrackerStoreBackend

/-- **Exported counters lose nothing in runs that miss no snapshot**, over both stores. -/
theorem exported_counters_lose_nothing (maxSegmentsPerPeer stalePeerMs : ℕ)
    (dateParse : String → Option Timestamp) :
    (∀ s, ((TrackerStore.backend maxSegmentsPerPeer).metricsSystem stalePeerMs dateParse).Reachable
        (fun s e => TrackerStoreBackend.ReportsGrow TrackerStore.liveStats s e ∧
          (TrackerStore.backend maxSegmentsPerPeer).NothingSkipped TrackerStore.liveStats
            dateParse s e) s →
      (TrackerStore.backend maxSegmentsPerPeer).LosesNothing s) ∧
    ∀ s, ((SQLiteStore.backend maxSegmentsPerPeer).metricsSystem stalePeerMs dateParse).Reachable
        (fun s e => TrackerStoreBackend.ReportsGrow SQLiteStore.liveStats s e ∧
          (SQLiteStore.backend maxSegmentsPerPeer).NothingSkipped SQLiteStore.liveStats
            dateParse s e) s →
      (SQLiteStore.backend maxSegmentsPerPeer).LosesNothing s := by
  constructor
  · intro s hr
    exact TrackerStoreBackend.losesNothing_of_reachable
      (fun s _ => TrackerStore.countsTraffic maxSegmentsPerPeer s) hr
  · intro s hr
    refine TrackerStoreBackend.losesNothing_of_reachable (fun q hq => ?_) hr
    obtain ⟨m, hrel⟩ := SQLiteStore.exists_interchangeable hq
    exact hrel.countsTraffic maxSegmentsPerPeer

/-! ## An expired lease -/

/-- `Date.parse` on the one lease of the runs below. -/
def parseNewYear (text : String) : Option Timestamp :=
  if text = "2026-01-01T00:00:00.000Z" then some 1767225600000 else none

/-- An origin's broadcast under a lease, and a viewer of it. -/
def leasedBroadcast : List MetricsEvent :=
  [.call 1767225590000 (.registerBroadcast ⟨"live", "https://origin/live.m3u8",
      some (((∅ : Metadata).set "owner" "origin").set "leaseExpiresAt" "2026-01-01T00:00:00.000Z")⟩),
    .call 1767225591000 (.joinPeer "live" ⟨"p", "http://p", none, none⟩ ⟨none⟩)]

/-- The viewer reports over its WebSocket, and the lease expires before the next scrape. -/
def unscrapedReport : List MetricsEvent :=
  leasedBroadcast ++ [.webSocketStats 1767225592000 "live" "p" fun _ => .finite 5,
    .removeStalePeers 1767225600000 1767225600000]

/-- The same with a scrape in between. -/
def scrapedReport : List MetricsEvent :=
  leasedBroadcast ++ [.webSocketStats 1767225592000 "live" "p" fun _ => .finite 5, .scrape,
    .removeStalePeers 1767225600000 1767225600000]

/-- The tracker after some events. -/
def metricsAfter {σ : Type} (T : TrackerStoreBackend σ) (events : List MetricsEvent) :
    MetricsState σ :=
  ((T.metricsSystem 45000 parseNewYear).run ⟨T.new, .new, []⟩ events).getD ⟨T.new, .new, []⟩

/-- Five P2P requests reported over a WebSocket are gone once the lease has
expired: no broadcast is left, the removed one had five, the scrape shows zero. -/
theorem unscraped_report_lost :
    ¬ ∀ s, ((TrackerStore.backend 9).metricsSystem 45000 parseNewYear).Reachable
        (TrackerStoreBackend.ReportsGrow TrackerStore.liveStats) s →
      (TrackerStore.backend 9).LosesNothing s := by
  intro h
  have hrun : ((TrackerStore.backend 9).metricsSystem 45000 parseNewYear).run
      ⟨(TrackerStore.backend 9).new, .new, []⟩ unscrapedReport
        = some (metricsAfter (TrackerStore.backend 9) unscrapedReport) := rfl
  obtain ⟨broadcasts, hstored, hscrape⟩ := h _
    ((TransitionSystem.Reachable.init rfl).append_run (by decide +kernel) hrun)
  have hempty : broadcasts = ∅ := by
    rw [Finset.eq_empty_iff_forall_notMem]
    intro b hb
    have hmem : b ∈ (metricsAfter (TrackerStore.backend 9) unscrapedReport).store.broadcasts :=
      TrackerStore.getBroadcastStats_isOk_iff.mp ((hstored b).mp hb)
    exact OrderedMap.not_mem_empty b hmem
  rw [hempty] at hscrape
  exact absurd hscrape (by decide +kernel)

/-- With a scrape before the lease expires, both stores have exported the five. -/
theorem exported_counters_lose_nothing_scrapedReport :
    (TrackerStore.backend 9).LosesNothing (metricsAfter (TrackerStore.backend 9) scrapedReport) ∧
      (SQLiteStore.backend 9).LosesNothing
        (metricsAfter (SQLiteStore.backend 9) scrapedReport) := by
  have hmemory : ((TrackerStore.backend 9).metricsSystem 45000 parseNewYear).run
      ⟨(TrackerStore.backend 9).new, .new, []⟩ scrapedReport
        = some (metricsAfter (TrackerStore.backend 9) scrapedReport) := rfl
  have hsqlite : ((SQLiteStore.backend 9).metricsSystem 45000 parseNewYear).run
      ⟨(SQLiteStore.backend 9).new, .new, []⟩ scrapedReport
        = some (metricsAfter (SQLiteStore.backend 9) scrapedReport) := rfl
  exact ⟨(exported_counters_lose_nothing 9 45000 parseNewYear).1 _
      ((TransitionSystem.Reachable.init rfl).append_run (by decide +kernel) hmemory),
    (exported_counters_lose_nothing 9 45000 parseNewYear).2 _
      ((TransitionSystem.Reachable.init rfl).append_run (by decide +kernel) hsqlite)⟩

end OpenStreamGrid
