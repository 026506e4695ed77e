import OpenStreamGrid.Tracker.StoreSimulation

/-!
# Traffic conservation

A broadcast's totals are the counters of its peers and the retired sum. Joins,
reports about quality and inventory, and retirements move counters between the
two or leave them where they are; a stats report exchanges one peer's counters.
The in-memory store is followed through the effect of each call; what holds of
it holds of the SQLite store, which every run keeps interchangeable with one.
-/

namespace OpenStreamGrid

/-- Calls after which every broadcast has the totals it had. -/
def StoreOp.keepsTotals : StoreOp → Bool
  | .registerBroadcast _ => false
  | .unregisterBroadcast _ => false
  | .reportStats _ _ _ => false
  | _ => true

namespace TrackerStoreBackend

variable {σ : Type} (T : TrackerStoreBackend σ)

/-- The counters shown for a broadcast, or the error. -/
def shownStats (s : σ) (b : BroadcastId) : Except StoreError PeerTrafficStats :=
  (T.getBroadcastStats s b).map TrafficTotals.stats

/-- The totals add up, and a call changes them by what it reports; `counters`
reads the counters stored for a peer. -/
structure ConservesTraffic (counters : σ → BroadcastId → PeerId → Option PeerTrafficStats)
    (s : σ) : Prop where
  sumsUp : T.SumsUp s
  kept : ∀ t op, op.keepsTotals → ∀ b, T.shownStats (T.next s t op) b = T.shownStats s b
  reported : ∀ t b p stats s', T.reportStats s t b p stats = .ok s' →
    (∃ previous before after, counters s b p = some previous ∧
      T.shownStats s b = .ok before ∧ T.shownStats s' b = .ok after ∧
      after + previous = before + sanitizePeerTrafficStats stats) ∧
    ∀ b', b' ≠ b → T.shownStats s' b' = T.shownStats s b'

end TrackerStoreBackend

/-! ## The in-memory store -/

namespace TrackerStore

/-- The totals of a stored broadcast. -/
def total (s : TrackerStore) (b : BroadcastId) : Option PeerTrafficStats :=
  (s.broadcasts.get? b).map fun state =>
    state.retiredStats + state.peers.sumValues PeerState.stats

theorem shownStats_eq (maxSegmentsPerPeer : ℕ) (s : TrackerStore) (b : BroadcastId) :
    (backend maxSegmentsPerPeer).shownStats s b
      = match s.total b with
        | some stats => .ok stats
        | none => .error (broadcastNotFound b) := by
  change (s.getBroadcastStats b).map TrafficTotals.stats = _
  unfold getBroadcastStats requireBroadcast total
  cases s.broadcasts.get? b with
  | none => rfl
  | some state => exact congrArg Except.ok (totalsFor_stats state)

theorem shownStats_congr (maxSegmentsPerPeer : ℕ) {s s' : TrackerStore} {b : BroadcastId}
    (h : s'.total b = s.total b) : (backend maxSegmentsPerPeer).shownStats s' b
      = (backend maxSegmentsPerPeer).shownStats s b := by
  rw [shownStats_eq, shownStats_eq, h]

/-- Writing a peer exchanges its counters. -/
theorem total_setPeer {s : TrackerStore} {b : BroadcastId} {state : BroadcastState}
    (hs : s.broadcasts.get? b = some state) (p : PeerId) (new : PeerState) :
    (∃ before after, s.total b = some before ∧ (s.setPeer b state p new).total b = some after ∧
      after + ((state.peers.get? p).map PeerState.stats).getD 0 = before + new.stats) ∧
    ∀ b', b' ≠ b → (s.setPeer b state p new).total b' = s.total b' := by
  have hsum : (state.peers.set p new).sumValues PeerState.stats
      + ((state.peers.get? p).map PeerState.stats).getD 0
      = state.peers.sumValues PeerState.stats + new.stats := by
    cases hp : state.peers.get? p with
    | none =>
        rw [OrderedMap.sumValues_set_of_not_mem _ (OrderedMap.get?_eq_none_iff.mp hp)]
        rfl
    | some old => exact OrderedMap.sumValues_set_of_get? PeerState.stats hp
  constructor
  · refine ⟨_, _, by rw [total, hs, Option.map_some],
      by rw [total, setPeer_broadcasts_get?, if_pos rfl, Option.map_some], ?_⟩
    rw [add_assoc, hsum, add_assoc]
  · intro b' hb
    rw [total, setPeer_broadcasts_get?, if_neg hb, total]

theorem total_setPeer_of_same {s : TrackerStore} {b : BroadcastId} {state : BroadcastState}
    (hs : s.broadcasts.get? b = some state) {p : PeerId} {new : PeerState}
    (hnew : new.stats = ((state.peers.get? p).map PeerState.stats).getD 0) (b' : BroadcastId) :
    (s.setPeer b state p new).total b' = s.total b' := by
  obtain ⟨⟨before, after, hbefore, hafter, heq⟩, hother⟩ := total_setPeer hs p new
  by_cases hb : b' = b
  · rw [← hnew] at heq
    rw [hb, hbefore, hafter, add_right_cancel heq]
  · exact hother b' hb

/-- Retiring a peer moves its counters into the retired sum. -/
theorem total_retirePeer (s : TrackerStore) (b b' : BroadcastId) (p : PeerId) :
    (s.retirePeer b p).total b' = s.total b' := by
  cases hp : s.peerState? b p with
  | none => rw [retirePeer_eq_self hp]
  | some peerState =>
      obtain ⟨state, hs, hpeer⟩ := peerState?_eq_some.mp hp
      rw [retirePeer_eq hs hpeer]
      unfold total
      rw [OrderedMap.get?_set]
      split_ifs with hb
      · rw [hb, hs, Option.map_some, Option.map_some, Option.some.injEq]
        have hdelete := OrderedMap.sumValues_delete_of_get? PeerState.stats hpeer
        calc state.retiredStats + peerState.stats
              + (state.peers.delete p).sumValues PeerState.stats
            = state.retiredStats
              + ((state.peers.delete p).sumValues PeerState.stats + peerState.stats) := by
              rw [add_assoc, add_comm peerState.stats]
          _ = state.retiredStats + state.peers.sumValues PeerState.stats := by rw [hdelete]
      · rfl

theorem total_retirePeers (b : BroadcastId) : ∀ (stale : List StalePeer) (s : TrackerStore),
    (s.retirePeers stale).total b = s.total b := by
  intro stale
  induction stale with
  | nil => intro s; rfl
  | cons x rest ih => intro s; exact (ih _).trans (total_retirePeer s _ b _)

/-- A call that is no registration and no stats report keeps every total. -/
theorem CallEffect.total {s s' : TrackerStore} {t : Timestamp} {op : StoreOp}
    (h : s.CallEffect t op s') (hop : op.keepsTotals) (b : BroadcastId) :
    s'.total b = s.total b := by
  cases h with
  | kept => rfl
  | registered registration => exact absurd hop Bool.false_ne_true
  | unregistered id => exact absurd hop Bool.false_ne_true
  | left b' p => exact total_retirePeers b _ s
  | swept maxAgeMs => exact total_retirePeers b _ s
  | joined hs => exact total_setPeer_of_same hs rfl b
  | @written _ b' p state old new failureConsensus htarget hs hp hseen hstats =>
      refine (total_setPeer_of_same hs ?_ b :)
      rw [hstats, hp]
      cases op <;> first | rfl | exact absurd hop Bool.false_ne_true

theorem conservesTraffic (maxSegmentsPerPeer : ℕ) (s : TrackerStore) :
    (backend maxSegmentsPerPeer).ConservesTraffic liveStats s where
  sumsUp := sumsUp maxSegmentsPerPeer s
  kept := by
    intro t op hop b
    exact shownStats_congr _ ((s.next_effect maxSegmentsPerPeer t op).total hop b)
  reported := by
    intro t b p stats s' hok
    change (s.reportStats t b p stats).map Prod.fst = .ok s' at hok
    cases hr : s.reportStats t b p stats with
    | error e => simp [hr, Except.map] at hok
    | ok result =>
        obtain ⟨next, peer⟩ := result
        rw [hr] at hok
        obtain rfl : next = s' := Except.ok.inj hok
        obtain ⟨state, old, hs, hp, rfl, -⟩ := modifyPeer_ok.mp hr
        obtain ⟨⟨before, after, hbefore, hafter, heq⟩, hother⟩ := total_setPeer hs p
          { peer := { old.peer with lastSeenAt := t }, stats := sanitizePeerTrafficStats stats }
        refine ⟨⟨old.stats, before, after, ?_, ?_, ?_, ?_⟩, fun b' hb => ?_⟩
        · rw [liveStats, peerState?_eq_some.mpr ⟨state, hs, hp⟩]
          rfl
        · rw [shownStats_eq, hbefore]
        · rw [shownStats_eq, hafter]
        · rw [hp] at heq
          exact heq
        · exact shownStats_congr _ (hother b' hb)

end TrackerStore

/-! ## The SQLite store -/

/-- Every state of the SQLite store is interchangeable with one of the memory store. -/
theorem SQLiteStore.exists_interchangeable {maxSegmentsPerPeer : ℕ} {q : SQLiteStore}
    (hr : (SQLiteStore.backend maxSegmentsPerPeer).system.Reachable (fun _ _ => True) q) :
    ∃ m, Interchangeable m q := by
  refine hr.invariant (fun q => ∃ m, Interchangeable m q) ?_ ?_
  · rintro q rfl
    exact ⟨.new maxSegmentsPerPeer, Interchangeable.new maxSegmentsPerPeer⟩
  · rintro q ⟨t, op⟩ q' ⟨m, hrel⟩ - hstep
    obtain rfl := Option.some.inj hstep
    exact ⟨_, (hrel.perform maxSegmentsPerPeer t op).next hrel⟩

theorem Interchangeable.shownStats_eq {m : TrackerStore} {q : SQLiteStore}
    (h : Interchangeable m q) (maxSegmentsPerPeer : ℕ) (b : BroadcastId) :
    (TrackerStore.backend maxSegmentsPerPeer).shownStats m b
      = (SQLiteStore.backend maxSegmentsPerPeer).shownStats q b :=
  congrArg (Except.map TrafficTotals.stats) (h.sameView.broadcastStats b)

theorem Interchangeable.conservesTraffic {m : TrackerStore} {q : SQLiteStore}
    (h : Interchangeable m q) (maxSegmentsPerPeer : ℕ) :
    (SQLiteStore.backend maxSegmentsPerPeer).ConservesTraffic SQLiteStore.liveStats q where
  sumsUp := SQLiteStore.sumsUp maxSegmentsPerPeer h.owned
  kept := by
    intro t op hop b
    have hnext := (h.perform maxSegmentsPerPeer t op).next h
    have hmemory := (TrackerStore.conservesTraffic maxSegmentsPerPeer m).kept t op hop b
    rw [h.shownStats_eq] at hmemory
    exact (hnext.shownStats_eq maxSegmentsPerPeer b).symm.trans hmemory
  reported := by
    intro t b p stats q' hok
    have hanswers := h.reportStats t b p stats
    change q.reportStats t b p stats = .ok q' at hok
    rw [hok] at hanswers
    cases hm : (m.reportStats t b p stats).map Prod.fst with
    | error e =>
        rw [hm] at hanswers
        cases hanswers
    | ok m' =>
        rw [hm] at hanswers
        have hnext : Interchangeable m' q' := by
          cases hanswers with
          | done hstores _ => exact hstores
        obtain ⟨⟨previous, before, after, hprevious, hbefore, hafter, heq⟩, hother⟩ :=
          (TrackerStore.conservesTraffic maxSegmentsPerPeer m).reported t b p stats m' hm
        rw [h.stats] at hprevious
        rw [h.shownStats_eq] at hbefore
        rw [hnext.shownStats_eq] at hafter
        refine ⟨⟨previous, before, after, hprevious, hbefore, hafter, heq⟩, fun b' hb => ?_⟩
        rw [← hnext.shownStats_eq, ← h.shownStats_eq]
        exact hother b' hb

/-- **Traffic is conserved in both stores**: in every state a run reaches the
global totals are the sum of the broadcasts' totals over all stored peers, and
only a stats report changes a broadcast's totals, by the reported counters in
place of the peer's previous ones. -/
theorem traffic_conserved (maxSegmentsPerPeer : ℕ) :
    (∀ s, (TrackerStore.backend maxSegmentsPerPeer).system.Reachable (fun _ _ => True) s →
      (TrackerStore.backend maxSegmentsPerPeer).ConservesTraffic TrackerStore.liveStats s) ∧
    ∀ s, (SQLiteStore.backend maxSegmentsPerPeer).system.Reachable (fun _ _ => True) s →
      (SQLiteStore.backend maxSegmentsPerPeer).ConservesTraffic SQLiteStore.liveStats s := by
  constructor
  · intro s _
    exact TrackerStore.conservesTraffic maxSegmentsPerPeer s
  · intro s hr
    obtain ⟨m, hrel⟩ := SQLiteStore.exists_interchangeable hr
    exact hrel.conservesTraffic maxSegmentsPerPeer

/-- Both stores conserve the traffic of a peer that joins twice. -/
theorem traffic_conserved_rejoiningPeer :
    (TrackerStore.backend 9).ConservesTraffic TrackerStore.liveStats
        (BothStores.after 9 rejoiningPeer).memory ∧
      (SQLiteStore.backend 9).ConservesTraffic SQLiteStore.liveStats
        (BothStores.after 9 rejoiningPeer).sqlite := by
  have hmemory : (TrackerStore.backend 9).system.run (.new 9) rejoiningPeer
      = some (BothStores.after 9 rejoiningPeer).memory := rfl
  have hsqlite : (SQLiteStore.backend 9).system.run (.new 9) rejoiningPeer
      = some (BothStores.after 9 rejoiningPeer).sqlite := rfl
  exact ⟨(traffic_conserved 9).1 _ (TransitionSystem.reachable_of_run rfl hmemory),
    (traffic_conserved 9).2 _ (TransitionSystem.reachable_of_run rfl hsqlite)⟩

end OpenStreamGrid
