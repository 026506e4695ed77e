import OpenStreamGrid.Lib.Ledger
import OpenStreamGrid.Lib.TransitionSystem
import OpenStreamGrid.Tracker.SqliteStore

/-!
# Traffic totals and what peers reported

A peer process reports cumulative counters; a store shows, per broadcast, the
counters of the present peers plus the retired sum of those that left. Both
stores keep a `Ledger` of their broadcasts: live rows are live accounts and
retirement closes an account. The totals are the sum of everyone's
contributions, and a contribution is what was reported last unless a process
reports again after counters of its own were retired.
-/

namespace OpenStreamGrid

/-- The operations of a tracker store that its traffic totals depend on; `none`
is a throwing call. -/
structure TrafficStore (σ : Type) where
  new : σ
  registerBroadcast : σ → Timestamp → BroadcastRegistration → σ
  joinPeer : σ → Timestamp → BroadcastId → PeerJoinRequest → JoinPeerOptions → Option σ
  reportStats : σ → Timestamp → BroadcastId → PeerId → TrafficRecord JsNumber → Option σ
  leavePeer : σ → BroadcastId → PeerId → Option σ
  removeStalePeers : σ → Timestamp → ℤ → σ × List StalePeer
  getBroadcastStats : σ → BroadcastId → Option TrafficTotals

def TrackerStore.traffic (maxSegmentsPerPeer : ℕ) : TrafficStore TrackerStore where
  new := .new maxSegmentsPerPeer
  registerBroadcast := fun s t registration => (s.registerBroadcast t registration).1
  joinPeer := fun s t b request options =>
    (s.joinPeerDetailed t b request options).toOption.map Prod.fst
  reportStats := fun s t b p stats => (s.reportStats t b p stats).toOption.map Prod.fst
  leavePeer := fun s b p => (s.leavePeer b p).toOption
  removeStalePeers := TrackerStore.removeStalePeers
  getBroadcastStats := fun s b => (s.getBroadcastStats b).toOption

def SQLiteStore.traffic (maxSegmentsPerPeer : ℕ) : TrafficStore SQLiteStore where
  new := .new maxSegmentsPerPeer
  registerBroadcast := fun s t registration => (s.registerBroadcast t registration).1
  joinPeer := fun s t b request options =>
    (s.joinPeerDetailed t b request options).toOption.map Prod.fst
  reportStats := fun s t b p stats => (s.reportStats t b p stats).toOption
  leavePeer := fun s b p => (s.leavePeer b p).toOption
  removeStalePeers := SQLiteStore.removeStalePeers
  getBroadcastStats := fun s b => (s.getBroadcastStats b).toOption

/-! ## Runs of processes against a store -/

/-- What peer processes and the tracker's cleanup do; `reportStats` carries the
cumulative counters of the process. -/
inductive TrafficEvent where
  | registerBroadcast (timestamp : Timestamp) (registration : BroadcastRegistration)
  | joinPeer (timestamp : Timestamp) (broadcastId : BroadcastId) (request : PeerJoinRequest)
      (options : JoinPeerOptions)
  | reportStats (timestamp : Timestamp) (broadcastId : BroadcastId) (peerId : PeerId)
      (stats : PeerTrafficStats)
  | removeStalePeers (now : Timestamp) (maxAgeMs : ℤ)
  | leavePeer (broadcastId : BroadcastId) (peerId : PeerId)

/-- A store beside the ledger of what was reported to it and retired from it. -/
structure TrafficState (σ : Type) where
  store : σ
  ledger : Ledger BroadcastId PeerId PeerTrafficStats

namespace TrafficStore

variable {σ : Type} (T : TrafficStore σ)

/-- Close the accounts of the removed peers. -/
def closeAll (ledger : Ledger BroadcastId PeerId PeerTrafficStats) (removed : List StalePeer) :
    Ledger BroadcastId PeerId PeerTrafficStats :=
  removed.foldl (fun L x => L.close x.broadcastId x.peerId) ledger

def step (s : TrafficState σ) : TrafficEvent → TrafficState σ
  | .registerBroadcast t registration =>
      { s with store := T.registerBroadcast s.store t registration }
  | .joinPeer t b request options =>
      match T.joinPeer s.store t b request options with
      | none => s
      | some store => ⟨store, s.ledger.openAccount b request.id⟩
  | .reportStats t b p stats =>
      match T.reportStats s.store t b p fun key => .finite (stats key) with
      | none => s
      | some store => ⟨store, s.ledger.post b p stats⟩
  | .removeStalePeers now maxAgeMs =>
      let swept := T.removeStalePeers s.store now maxAgeMs
      ⟨swept.1, closeAll s.ledger swept.2⟩
  | .leavePeer b p =>
      match T.leavePeer s.store b p with
      | none => s
      | some store => ⟨store, s.ledger.close b p⟩

/-- Runs of a store that starts empty. -/
def system : TransitionSystem (TrafficState σ) TrafficEvent where
  init s := s = ⟨T.new, .empty⟩
  step s e := some (T.step s e)

/-- The counters of a process only grow. -/
def CountersGrow (s : TrafficState σ) : TrafficEvent → Prop
  | .reportStats _ b p stats => s.ledger.latest b p ≤ stats
  | _ => True

/-- A process whose peer is present reports only while none of its counters is
in the retired sum. -/
def NothingRetired (s : TrafficState σ) : TrafficEvent → Prop
  | .reportStats _ b p _ => (s.ledger.live b p).isSome → s.ledger.closedOf b p = 0
  | _ => True

instance (s : TrafficState σ) : ∀ e, Decidable (CountersGrow s e)
  | .registerBroadcast _ _ => isTrue trivial
  | .joinPeer _ _ _ _ => isTrue trivial
  | .reportStats _ b p stats =>
      inferInstanceAs (Decidable (∀ key, s.ledger.latest b p key ≤ stats key))
  | .removeStalePeers _ _ => isTrue trivial
  | .leavePeer _ _ => isTrue trivial

instance (s : TrafficState σ) : ∀ e, Decidable (NothingRetired s e)
  | .registerBroadcast _ _ => isTrue trivial
  | .joinPeer _ _ _ _ => isTrue trivial
  | .reportStats _ _ _ _ => inferInstanceAs (Decidable (_ → _ = _))
  | .removeStalePeers _ _ => isTrue trivial
  | .leavePeer _ _ => isTrue trivial

/-- Every process contributes the counters it reported last, and the totals of a
broadcast are the sum over the processes. -/
def CountsLatest (s : TrafficState σ) : Prop :=
  s.ledger.Counted ∧
    ∀ b totals, T.getBroadcastStats s.store b = some totals →
      ∃ members : Finset PeerId, (∀ p, p ∉ members → s.ledger.latest b p = 0) ∧
        totals.stats = ∑ p ∈ members, s.ledger.latest b p

/-! ## Stores that keep a ledger -/

/-- A store whose live rows and retired sums move as the accounts of a ledger. -/
structure KeepsLedger where
  Inv : σ → Prop
  live : σ → BroadcastId → PeerId → Option PeerTrafficStats
  retired : σ → BroadcastId → PeerTrafficStats
  retirePeer : σ → BroadcastId → PeerId → σ
  inv_new : Inv T.new
  live_new : ∀ b p, live T.new b p = none
  retired_new : ∀ b, retired T.new b = 0
  registerBroadcast : ∀ s t registration, Inv s →
    Inv (T.registerBroadcast s t registration) ∧
      (∀ b p, live (T.registerBroadcast s t registration) b p = live s b p) ∧
      ∀ b, retired (T.registerBroadcast s t registration) b = retired s b
  joinPeer : ∀ s t b request options s', Inv s → T.joinPeer s t b request options = some s' →
    Inv s' ∧
      (∀ b' p', live s' b' p' = if b' = b ∧ p' = request.id then
        some ((live s b request.id).getD 0) else live s b' p') ∧
      ∀ b', retired s' b' = retired s b'
  reportStats : ∀ s t b p stats s', Inv s → T.reportStats s t b p stats = some s' →
    (live s b p).isSome ∧ Inv s' ∧
      (∀ b' p', live s' b' p' = if b' = b ∧ p' = p then
        some (sanitizePeerTrafficStats stats) else live s b' p') ∧
      ∀ b', retired s' b' = retired s b'
  retire : ∀ s b p v, Inv s → live s b p = some v →
    Inv (retirePeer s b p) ∧
      (∀ b' p', live (retirePeer s b p) b' p' = if b' = b ∧ p' = p then none else live s b' p') ∧
      ∀ b', retired (retirePeer s b p) b' = if b' = b then retired s b' + v else retired s b'
  leavePeer : ∀ s b p s', Inv s → T.leavePeer s b p = some s' →
    (live s b p).isSome ∧ s' = retirePeer s b p
  removeStalePeers : ∀ s now maxAgeMs, Inv s →
    (T.removeStalePeers s now maxAgeMs).1 =
        (T.removeStalePeers s now maxAgeMs).2.foldl
          (fun s x => retirePeer s x.broadcastId x.peerId) s ∧
      (T.removeStalePeers s now maxAgeMs).2.Nodup ∧
      ∀ x ∈ (T.removeStalePeers s now maxAgeMs).2, (live s x.broadcastId x.peerId).isSome
  totals : ∀ s b totals, Inv s → T.getBroadcastStats s b = some totals →
    ∃ holders : Finset PeerId, (∀ p, p ∉ holders → live s b p = none) ∧
      totals.stats = retired s b + ∑ p ∈ holders, (live s b p).getD 0

namespace KeepsLedger

variable {T} (K : T.KeepsLedger)

/-- The ledger shows the store's live rows and retired sums. -/
structure Tracks (s : TrafficState σ) : Prop where
  inv : K.Inv s.store
  live : ∀ b p, K.live s.store b p = s.ledger.live b p
  retired : ∀ b, K.retired s.store b = s.ledger.closedTotal b

theorem tracks_new : K.Tracks ⟨T.new, .empty⟩ where
  inv := K.inv_new
  live := K.live_new
  retired := fun b => by
    rw [K.retired_new]
    rfl

variable {K}

theorem Tracks.close {s : TrafficState σ} (h : K.Tracks s) {b : BroadcastId} {p : PeerId}
    (hlive : (K.live s.store b p).isSome) :
    K.Tracks ⟨K.retirePeer s.store b p, s.ledger.close b p⟩ := by
  obtain ⟨v, hv⟩ := Option.isSome_iff_exists.mp hlive
  obtain ⟨hinv, hlive', hretired⟩ := K.retire _ b p v h.inv hv
  refine ⟨hinv, fun b' p' => ?_, fun b' => ?_⟩
  · rw [hlive', Ledger.live_close, h.live]
  · rw [h.live] at hv
    rw [hretired, Ledger.closedTotal_close hv, h.retired]

theorem Tracks.closeAll {removed : List StalePeer} : ∀ {s : TrafficState σ}, K.Tracks s →
    removed.Nodup → (∀ x ∈ removed, (K.live s.store x.broadcastId x.peerId).isSome) →
    K.Tracks ⟨removed.foldl (fun s x => K.retirePeer s x.broadcastId x.peerId) s.store,
      closeAll s.ledger removed⟩ := by
  induction removed with
  | nil => intro s h _ _; exact h
  | cons x rest ih =>
      intro s h hnd hlive
      obtain ⟨hx, hrest⟩ := List.nodup_cons.mp hnd
      have hxlive := hlive x List.mem_cons_self
      have hclosed := h.close hxlive
      refine ih hclosed hrest fun y hy => ?_
      obtain ⟨v, hv⟩ := Option.isSome_iff_exists.mp hxlive
      rw [(K.retire _ _ _ v h.inv hv).2.1, if_neg]
      · exact hlive y (List.mem_cons_of_mem _ hy)
      · rintro ⟨hb, hp⟩
        exact hx (by
          have : y = x := by
            cases y
            cases x
            simp_all
          exact this ▸ hy)

theorem Tracks.step {s : TrafficState σ} (h : K.Tracks s) (e : TrafficEvent) :
    K.Tracks (T.step s e) := by
  cases e with
  | registerBroadcast t registration =>
      obtain ⟨hinv, hlive, hretired⟩ := K.registerBroadcast s.store t registration h.inv
      exact ⟨hinv, fun b p => (hlive b p).trans (h.live b p),
        fun b => (hretired b).trans (h.retired b)⟩
  | joinPeer t b request options =>
      simp only [TrafficStore.step]
      cases hj : T.joinPeer s.store t b request options with
      | none => exact h
      | some store =>
          obtain ⟨hinv, hlive, hretired⟩ := K.joinPeer _ _ _ _ _ _ h.inv hj
          refine ⟨hinv, fun b' p' => ?_, fun b' => ?_⟩
          · rw [hlive, h.live, h.live]
            rfl
          · rw [hretired, h.retired]
            rfl
  | reportStats t b p stats =>
      simp only [TrafficStore.step]
      cases hr : T.reportStats s.store t b p fun key => .finite (stats key) with
      | none => exact h
      | some store =>
          obtain ⟨-, hinv, hlive, hretired⟩ := K.reportStats _ _ _ _ _ _ h.inv hr
          refine ⟨hinv, fun b' p' => ?_, fun b' => ?_⟩
          · rw [hlive, h.live, sanitizePeerTrafficStats_natCast]
            rfl
          · rw [hretired, h.retired]
            rfl
  | removeStalePeers now maxAgeMs =>
      obtain ⟨hstore, hnd, hlive⟩ := K.removeStalePeers s.store now maxAgeMs h.inv
      simp only [TrafficStore.step, hstore]
      exact h.closeAll hnd hlive
  | leavePeer b p =>
      simp only [TrafficStore.step]
      cases hl : T.leavePeer s.store b p with
      | none => exact h
      | some store =>
          obtain ⟨hlive, rfl⟩ := K.leavePeer _ _ _ _ h.inv hl
          exact h.close hlive

/-- The totals are the sum of the contributions, whatever was reported when. -/
theorem Tracks.totals {s : TrafficState σ} (h : K.Tracks s) {b : BroadcastId}
    {totals : TrafficTotals} (ht : T.getBroadcastStats s.store b = some totals) :
    ∃ members : Finset PeerId, (∀ p, p ∉ members → s.ledger.contribution b p = 0) ∧
      totals.stats = ∑ p ∈ members, s.ledger.contribution b p := by
  obtain ⟨holders, hholders, hstats⟩ := K.totals _ _ _ h.inv ht
  obtain ⟨members, -, hzero, hsum⟩ := s.ledger.total_eq_sum_contribution b holders
    fun p hp => by rw [← h.live]; exact hholders p hp
  refine ⟨members, hzero, ?_⟩
  rw [hstats, h.retired, ← hsum]
  simp only [h.live]

end KeepsLedger

theorem closeAll_counted {removed : List StalePeer} :
    ∀ {L : Ledger BroadcastId PeerId PeerTrafficStats}, L.Counted →
      (closeAll L removed).Counted := by
  induction removed with
  | nil => intro L h; exact h
  | cons x rest ih => intro L h; exact ih (h.close x.broadcastId x.peerId)

variable {T}

theorem counted_step {K : T.KeepsLedger} {s : TrafficState σ} {e : TrafficEvent}
    (hs : K.Tracks s) (h : s.ledger.Counted) (hok : NothingRetired s e) :
    (T.step s e).ledger.Counted := by
  cases e with
  | registerBroadcast t registration => exact h
  | joinPeer t b request options =>
      simp only [step]
      cases T.joinPeer s.store t b request options with
      | none => exact h
      | some store => exact h.openAccount b request.id
  | reportStats t b p stats =>
      simp only [step]
      cases hr : T.reportStats s.store t b p fun key => .finite (stats key) with
      | none => exact h
      | some store =>
          have hlive := (K.reportStats _ _ _ _ _ _ hs.inv hr).1
          rw [hs.live] at hlive
          exact h.post stats (hok hlive)
  | removeStalePeers now maxAgeMs => exact closeAll_counted h
  | leavePeer b p =>
      simp only [step]
      cases T.leavePeer s.store b p with
      | none => exact h
      | some store => exact h.close b p

/-- A store that keeps a ledger counts the latest reports in every run in which
no process reports after counters of its own were retired. -/
theorem countsLatest_of_reachable (K : T.KeepsLedger) {s : TrafficState σ}
    (hr : T.system.Reachable NothingRetired s) : T.CountsLatest s := by
  obtain ⟨htracks, hcounted⟩ : K.Tracks s ∧ s.ledger.Counted := by
    refine hr.invariant (fun s => K.Tracks s ∧ s.ledger.Counted) ?_ ?_
    · rintro s rfl
      exact ⟨K.tracks_new, Ledger.counted_empty⟩
    · rintro s e s' ⟨hs, h⟩ hok hstep
      obtain rfl := Option.some.inj hstep
      exact ⟨hs.step e, counted_step hs h hok⟩
  refine ⟨hcounted, fun b totals ht => ?_⟩
  obtain ⟨members, hzero, hsum⟩ := htracks.totals ht
  refine ⟨members, fun p hp => ?_, ?_⟩
  · rw [← hcounted b p]
    exact hzero p hp
  · rw [hsum]
    exact Finset.sum_congr rfl fun p _ => hcounted b p

end TrafficStore

theorem toOption_eq_some {ε α : Type} {r : Except ε α} {a : α} :
    r.toOption = some a ↔ r = .ok a := by
  cases r <;> simp [Except.toOption]

/-! ## The in-memory store keeps a ledger -/

namespace TrackerStore

def liveStats (s : TrackerStore) (b : BroadcastId) (p : PeerId) : Option PeerTrafficStats :=
  (s.peerState? b p).map PeerState.stats

def retiredSum (s : TrackerStore) (b : BroadcastId) : PeerTrafficStats :=
  ((s.broadcasts.get? b).map BroadcastState.retiredStats).getD 0

theorem retiredSum_setPeer {s : TrackerStore} {b : BroadcastId} {state : BroadcastState}
    (hs : s.broadcasts.get? b = some state) (p : PeerId) (peerState : PeerState)
    (b' : BroadcastId) : (s.setPeer b state p peerState).retiredSum b' = s.retiredSum b' := by
  unfold retiredSum
  rw [setPeer_broadcasts_get?]
  by_cases hb : b' = b
  · simp [hb, hs]
  · simp [hb]

theorem retiredSum_registerBroadcast (s : TrackerStore) (t : Timestamp)
    (registration : BroadcastRegistration) (b : BroadcastId) :
    (s.registerBroadcast t registration).1.retiredSum b = s.retiredSum b := by
  unfold registerBroadcast retiredSum
  cases hs : s.broadcasts.get? registration.id with
  | none =>
      simp only [OrderedMap.get?_set]
      by_cases hb : b = registration.id
      · simp [hb, hs]
      · simp [hb]
  | some state =>
      simp only [OrderedMap.get?_set]
      by_cases hb : b = registration.id
      · simp [hb, hs]
      · simp [hb]

theorem retire_accounts {s : TrackerStore} {b : BroadcastId} {p : PeerId} {v : PeerTrafficStats}
    (h : s.liveStats b p = some v) :
    (∀ b' p', (s.retirePeer b p).liveStats b' p'
        = if b' = b ∧ p' = p then none else s.liveStats b' p') ∧
      ∀ b', (s.retirePeer b p).retiredSum b'
        = if b' = b then s.retiredSum b' + v else s.retiredSum b' := by
  obtain ⟨peerState, hp, rfl⟩ := Option.map_eq_some_iff.mp h
  obtain ⟨state, hs, hpeer⟩ := peerState?_eq_some.mp hp
  constructor
  · intro b' p'
    unfold liveStats
    rw [peerState?_retirePeer]
    split_ifs <;> rfl
  · intro b'
    rw [retirePeer_eq hs hpeer]
    unfold retiredSum BroadcastState.retire
    rw [OrderedMap.get?_set]
    by_cases hb : b' = b
    · simp [hb, hs]
    · simp [hb]

theorem totalsFor_stats (state : BroadcastState) :
    (totalsFor state).stats = state.retiredStats + state.peers.sumValues PeerState.stats := by
  have hfold : ∀ (l : List PeerTrafficStats) (a : PeerTrafficStats),
      l.foldl addPeerTrafficStats a = a + l.sum := by
    intro l
    induction l with
    | nil => intro a; simp
    | cons v rest ih => intro a; rw [List.foldl_cons, ih]; simp [add_assoc]
  unfold totalsFor OrderedMap.sumValues
  rw [hfold]
  simp

def keepsLedger (maxSegmentsPerPeer : ℕ) : (traffic maxSegmentsPerPeer).KeepsLedger where
  Inv := fun _ => True
  live := liveStats
  retired := retiredSum
  retirePeer := retirePeer
  inv_new := trivial
  live_new := fun _ _ => rfl
  retired_new := fun _ => rfl
  registerBroadcast := fun s t registration _ =>
    ⟨trivial, fun b p => by
      simp only [traffic, liveStats, peerState?_registerBroadcast],
      fun b => retiredSum_registerBroadcast s t registration b⟩
  joinPeer := by
    intro s t b request options s' _ hjoin
    obtain ⟨⟨next, peer, already⟩, hj, rfl⟩ := Option.map_eq_some_iff.mp hjoin
    obtain ⟨state, hs, -, -, -, rfl⟩ := joinPeerDetailed_ok.mp (toOption_eq_some.mp hj)
    refine ⟨trivial, fun b' p' => ?_, retiredSum_setPeer hs _ _⟩
    have hlive : s.liveStats b request.id = (state.peers.get? request.id).map PeerState.stats := by
      simp [liveStats, peerState?, hs]
    rw [hlive]
    unfold liveStats
    rw [peerState?_setPeer hs]
    split_ifs <;> rfl
  reportStats := by
    intro s t b p stats s' _ hreport
    obtain ⟨⟨next, peer⟩, hr, rfl⟩ := Option.map_eq_some_iff.mp hreport
    obtain ⟨state, peerState, hs, hp, rfl, -⟩ := modifyPeer_ok.mp (toOption_eq_some.mp hr)
    refine ⟨?_, trivial, fun b' p' => ?_, retiredSum_setPeer hs _ _⟩
    · rw [liveStats, peerState?_eq_some.mpr ⟨state, hs, hp⟩]
      rfl
    unfold liveStats
    rw [peerState?_setPeer hs]
    split_ifs <;> rfl
  retire := fun s b p v _ h => ⟨trivial, retire_accounts h⟩
  leavePeer := by
    intro s b p s' _ hleave
    obtain ⟨hp, rfl⟩ := leavePeer_ok.mp (toOption_eq_some.mp hleave)
    exact ⟨by rw [liveStats, Option.isSome_map]; exact hp, rfl⟩
  removeStalePeers := by
    intro s now maxAgeMs _
    simp only [traffic, removeStalePeers_eq]
    refine ⟨rfl, s.nodup_stalePeers _, fun x hx => ?_⟩
    obtain ⟨peerState, hp, -⟩ := mem_stalePeers.mp hx
    rw [liveStats, hp]
    rfl
  totals := by
    intro s b totals _ ht
    cases hs : s.broadcasts.get? b with
    | none => simp [traffic, getBroadcastStats, requireBroadcast, hs, Except.map,
        Except.toOption] at ht
    | some state =>
        simp only [traffic, getBroadcastStats, requireBroadcast, hs, Except.map,
          Except.toOption, Option.some.injEq] at ht
        subst ht
        have hlive : ∀ p, s.liveStats b p = (state.peers.get? p).map PeerState.stats := by
          intro p
          simp [liveStats, peerState?, hs]
        refine ⟨state.peers.keys.toFinset, fun p hp => ?_, ?_⟩
        · rw [hlive, OrderedMap.get?_eq_none_iff.mpr fun h => hp (List.mem_toFinset.mpr h)]
          rfl
        · rw [totalsFor_stats, OrderedMap.sumValues_eq_sum_keys]
          simp only [hlive, retiredSum, hs, Option.map_some, Option.getD_some]

end TrackerStore

/-! ## The SQLite store keeps a ledger -/

namespace SQLiteStore

def liveStats (s : SQLiteStore) (b : BroadcastId) (p : PeerId) : Option PeerTrafficStats :=
  s.peerStats.get? (b, p)

def retiredSum (s : SQLiteStore) (b : BroadcastId) : PeerTrafficStats :=
  (s.retiredPeerStats.get? b).getD 0

/-- A peer has a row of counters exactly when it has a row. -/
def StatsOfPeers (s : SQLiteStore) : Prop :=
  ∀ b p, (s.findPeer b p).isSome = (s.liveStats b p).isSome

theorem retire_accounts {s : SQLiteStore} {b : BroadcastId} {p : PeerId} {v : PeerTrafficStats}
    (h : s.liveStats b p = some v) :
    (∀ b' p', (s.retirePeer b p).liveStats b' p'
        = if b' = b ∧ p' = p then none else s.liveStats b' p') ∧
      ∀ b', (s.retirePeer b p).retiredSum b'
        = if b' = b then s.retiredSum b' + v else s.retiredSum b' := by
  have hv : s.peerStats.get? (b, p) = some v := h
  constructor
  · intro b' p'
    simp only [liveStats, retirePeer, deletePeer, deletePeerSegments, deletePeerStats,
      (accumulateRetiredStats_tables s b p).2.2.2.1, OrderedMap.get?_delete, Prod.mk.injEq]
  · intro b'
    simp only [retiredSum, retirePeer, deletePeer, deletePeerSegments, deletePeerStats,
      accumulateRetiredStats, hv, OrderedMap.get?_set]
    by_cases hb : b' = b
    · subst hb
      cases s.retiredPeerStats.get? b' <;> simp
    · simp [hb]

theorem statsOfPeers_retirePeer {s : SQLiteStore} {b : BroadcastId} {p : PeerId}
    {v : PeerTrafficStats} (hs : s.StatsOfPeers) (h : s.liveStats b p = some v) :
    (s.retirePeer b p).StatsOfPeers := by
  intro b' p'
  rw [findPeer_retirePeer, (retire_accounts h).1]
  split_ifs
  · rfl
  · exact hs b' p'

theorem registerBroadcast_tables (s : SQLiteStore) (t : Timestamp)
    (registration : BroadcastRegistration) :
    (s.registerBroadcast t registration).1.peers = s.peers ∧
      (s.registerBroadcast t registration).1.peerStats = s.peerStats ∧
      (s.registerBroadcast t registration).1.retiredPeerStats = s.retiredPeerStats := by
  unfold registerBroadcast
  cases s.findBroadcast registration.id <;> exact ⟨rfl, rfl, rfl⟩

theorem liveStats_insertEmptyPeerStats (s : SQLiteStore) (b b' : BroadcastId) (p p' : PeerId) :
    (s.insertEmptyPeerStats b p).liveStats b' p'
      = if b' = b ∧ p' = p then some ((s.liveStats b p).getD 0) else s.liveStats b' p' := by
  unfold insertEmptyPeerStats liveStats
  by_cases hmem : (b, p) ∈ s.peerStats
  · obtain ⟨v, hv⟩ := OrderedMap.get?_of_mem hmem
    rw [if_pos hmem]
    split_ifs with hbp
    · rw [hbp.1, hbp.2, hv, Option.getD_some]
    · rfl
  · rw [if_neg hmem, OrderedMap.get?_set, OrderedMap.get?_eq_none_iff.mpr hmem]
    simp only [Prod.mk.injEq]
    rfl

theorem updatePeer_stats (s : SQLiteStore) (b : BroadcastId) (p : PeerId)
    (f : PeerRow → PeerRow) :
    (s.updatePeer b p f).peerStats = s.peerStats ∧
      (s.updatePeer b p f).retiredPeerStats = s.retiredPeerStats := by
  unfold updatePeer
  cases s.findPeer b p <;> exact ⟨rfl, rfl⟩

theorem mem_listStalePeers {s : SQLiteStore} {cutoff : Timestamp} {x : StalePeer}
    (hx : x ∈ s.listStalePeers cutoff) : (s.findPeer x.broadcastId x.peerId).isSome := by
  unfold listStalePeers at hx
  rw [(List.perm_insertionSort _ _).mem_iff, List.mem_map] at hx
  obtain ⟨⟨⟨b, p⟩, row⟩, hmem, rfl⟩ := hx
  rw [findPeer, OrderedMap.get?_eq_some_iff.mpr (List.mem_filter.mp hmem).1]
  rfl

theorem nodup_listStalePeers (s : SQLiteStore) (cutoff : Timestamp) :
    (s.listStalePeers cutoff).Nodup := by
  unfold listStalePeers
  rw [(List.perm_insertionSort _ _).nodup_iff]
  have hkeys : (s.peers.entries.filter fun e => decide (e.2.lastSeenAt < cutoff)).map
      (fun e => (⟨e.1.1, e.1.2⟩ : StalePeer))
      = ((s.peers.entries.filter fun e => decide (e.2.lastSeenAt < cutoff)).map Prod.fst).map
          fun k => ⟨k.1, k.2⟩ := by
    rw [List.map_map]
    rfl
  rw [hkeys]
  refine List.Nodup.map ?_ ((List.filter_sublist.map Prod.fst).nodup s.peers.nodupKeys)
  rintro ⟨b, p⟩ ⟨b', p'⟩ heq
  obtain ⟨hb, hp⟩ := StalePeer.mk.inj heq
  exact Prod.ext hb hp

theorem getBroadcastStats_stats {s : SQLiteStore} {b : BroadcastId} {totals : TrafficTotals}
    (h : s.getBroadcastStats b = .ok totals) :
    totals.stats = s.retiredSum b +
      ((s.peerStats.entries.filter fun e => decide (e.1.1 = b)).map Prod.snd).sum := by
  unfold getBroadcastStats at h
  cases hb : s.requireBroadcast b with
  | error e => simp [hb, Except.map] at h
  | ok broadcast =>
      simp only [hb, Except.map, Except.ok.injEq] at h
      subst h
      simp only [List.sum_append, s.retiredPeerStats.entries_filter_key b, retiredSum]
      rw [add_comm]
      cases s.retiredPeerStats.get? b <;> simp

def keepsLedger (maxSegmentsPerPeer : ℕ) : (traffic maxSegmentsPerPeer).KeepsLedger where
  Inv := StatsOfPeers
  live := liveStats
  retired := retiredSum
  retirePeer := retirePeer
  inv_new := fun _ _ => rfl
  live_new := fun _ _ => rfl
  retired_new := fun _ => rfl
  registerBroadcast := by
    intro s t registration hs
    obtain ⟨hpeers, hstats, hretired⟩ := s.registerBroadcast_tables t registration
    simp only [traffic]
    refine ⟨fun b p => ?_, fun b p => ?_, fun b => ?_⟩
    · unfold findPeer liveStats
      rw [hpeers, hstats]
      exact hs b p
    · unfold liveStats
      rw [hstats]
    · unfold retiredSum
      rw [hretired]
  joinPeer := by
    intro s t b request options s' hs hjoin
    obtain ⟨⟨next, peer, already⟩, hj, rfl⟩ := Option.map_eq_some_iff.mp hjoin
    obtain ⟨-, -, rfl⟩ := joinPeerDetailed_ok.mp ⟨peer, already, toOption_eq_some.mp hj⟩
    refine ⟨fun b' p' => ?_, fun b' p' => ?_, fun b' => ?_⟩
    · rw [findPeer_insertEmptyPeerStats, findPeer_upsertPeer, liveStats_insertEmptyPeerStats]
      split_ifs
      · rfl
      · exact hs b' p'
    · exact liveStats_insertEmptyPeerStats ..
    · unfold retiredSum
      rw [(insertEmptyPeerStats_tables _ b request.id).2.2.2.1]
      rfl
  reportStats := by
    intro s t b p stats s' hs hreport
    have hr := toOption_eq_some.mp hreport
    unfold reportStats at hr
    cases hrow : s.requirePeerRow b p with
    | error e => simp [hrow] at hr
    | ok row =>
        simp only [hrow, Except.ok.injEq] at hr
        subst hr
        have hpresent : (s.findPeer b p).isSome :=
          congrArg Option.isSome (requirePeerRow_ok.mp hrow)
        unfold updatePeerLastSeen
        refine ⟨?_, fun b' p' => ?_, fun b' p' => ?_, fun b' => ?_⟩
        · rw [← hs b p]
          exact hpresent
        · rw [findPeer_updatePeer]
          unfold liveStats
          rw [(updatePeer_stats ..).1, OrderedMap.get?_set]
          simp only [Prod.mk.injEq]
          split_ifs with hbp
          · rw [Option.isSome_map]
            exact hpresent
          · exact hs b' p'
        · unfold liveStats
          rw [(updatePeer_stats ..).1, OrderedMap.get?_set]
          simp only [Prod.mk.injEq]
        · unfold retiredSum
          rw [(updatePeer_stats ..).2]
  retire := fun s b p v hs h =>
    ⟨statsOfPeers_retirePeer hs h, (retire_accounts h).1, (retire_accounts h).2⟩
  leavePeer := by
    intro s b p s' hs hleave
    obtain ⟨⟨-, hp⟩, rfl⟩ := leavePeer_ok.mp (toOption_eq_some.mp hleave)
    exact ⟨by rw [← hs b p]; exact hp, rfl⟩
  removeStalePeers := by
    intro s now maxAgeMs hs
    simp only [traffic, removeStalePeers]
    refine ⟨trivial, s.nodup_listStalePeers _, fun x hx => ?_⟩
    rw [← hs]
    exact mem_listStalePeers hx
  totals := by
    intro s b totals hs ht
    have hstats := getBroadcastStats_stats (toOption_eq_some.mp ht)
    have hnd : ((s.peerStats.entries.filter fun e => decide (e.1.1 = b)).map
        fun e => e.1.2).Nodup := by
      refine List.Nodup.map_on ?_ ((List.Nodup.of_map _ s.peerStats.nodupKeys).filter _)
      rintro ⟨⟨b₁, p₁⟩, v₁⟩ h₁ ⟨⟨b₂, p₂⟩, v₂⟩ h₂ heq
      simp only [List.mem_filter, decide_eq_true_eq] at h₁ h₂ heq
      obtain ⟨hmem₁, rfl⟩ := h₁
      obtain ⟨hmem₂, rfl⟩ := h₂
      subst heq
      have := (OrderedMap.get?_eq_some_iff.mpr hmem₁).symm.trans
        (OrderedMap.get?_eq_some_iff.mpr hmem₂)
      rw [Option.some.inj this]
    refine ⟨((s.peerStats.entries.filter fun e => decide (e.1.1 = b)).map
      fun e => e.1.2).toFinset, fun p hp => ?_, ?_⟩
    · unfold liveStats
      cases hlive : s.peerStats.get? (b, p) with
      | none => rfl
      | some v =>
          refine absurd (List.mem_toFinset.mpr (List.mem_map.mpr ⟨((b, p), v), ?_, rfl⟩)) hp
          exact List.mem_filter.mpr ⟨OrderedMap.get?_eq_some_iff.mp hlive, by simp⟩
    · rw [hstats, List.sum_toFinset _ hnd, List.map_map]
      congr 2
      refine List.map_congr_left fun e he => ?_
      obtain ⟨hmem, hb⟩ := List.mem_filter.mp he
      rw [decide_eq_true_eq] at hb
      have hget : s.peerStats.get? (b, e.1.2) = some e.2 := by
        rw [← hb]
        exact OrderedMap.get?_eq_some_iff.mpr hmem
      simp [liveStats, hget]

end SQLiteStore

/-! ## Both stores -/

/-- **Traffic is counted once** in both stores as long as no process reports
after counters of its own were retired. -/
theorem traffic_counts_latest (maxSegmentsPerPeer : ℕ) :
    (∀ s, (TrackerStore.traffic maxSegmentsPerPeer).system.Reachable
        TrafficStore.NothingRetired s →
      (TrackerStore.traffic maxSegmentsPerPeer).CountsLatest s) ∧
    (∀ s, (SQLiteStore.traffic maxSegmentsPerPeer).system.Reachable
        TrafficStore.NothingRetired s →
      (SQLiteStore.traffic maxSegmentsPerPeer).CountsLatest s) :=
  ⟨fun _ hr => TrafficStore.countsLatest_of_reachable (TrackerStore.keepsLedger _) hr,
    fun _ hr => TrafficStore.countsLatest_of_reachable (SQLiteStore.keepsLedger _) hr⟩

/-- Counters with the same value everywhere. -/
def uniformStats (n : ℕ) : PeerTrafficStats := fun _ => n

/-- A peer reports, and stays silent for a while. -/
def silentPeer : List TrafficEvent :=
  [.registerBroadcast 0 ⟨"live", "https://origin/live.m3u8", none⟩,
    .joinPeer 0 "live" ⟨"p", "http://p", none, none⟩ ⟨none⟩,
    .reportStats 0 "live" "p" (uniformStats 5),
    .removeStalePeers 100 10]

/-- It is swept, joins again, and its process reports its counters as before. -/
def returningPeer : List TrafficEvent :=
  silentPeer ++
    [.joinPeer 100 "live" ⟨"p", "http://p", none, none⟩ ⟨none⟩,
      .reportStats 100 "live" "p" (uniformStats 7)]

/-- The state a list of events leads to. -/
def TrafficStore.after {σ : Type} (T : TrafficStore σ) (events : List TrafficEvent) :
    TrafficState σ :=
  events.foldl T.step ⟨T.new, .empty⟩

theorem TrafficStore.after_reachable {σ : Type} (T : TrafficStore σ)
    {ok : TrafficState σ → TrafficEvent → Prop} {events : List TrafficEvent}
    (hok : T.system.RunOk ok ⟨T.new, .empty⟩ events) : T.system.Reachable ok (T.after events) :=
  (TransitionSystem.Reachable.init rfl).append_run hok
    (T.system.run_eq_foldl (fun _ _ => rfl) events _)

/-- A swept peer still contributes what it reported last. -/
theorem traffic_counts_latest_swept :
    (TrackerStore.traffic 9).CountsLatest ((TrackerStore.traffic 9).after silentPeer) ∧
      (SQLiteStore.traffic 9).CountsLatest ((SQLiteStore.traffic 9).after silentPeer) :=
  ⟨(traffic_counts_latest 9).1 _ (TrafficStore.after_reachable _ (by decide)),
    (traffic_counts_latest 9).2 _ (TrafficStore.after_reachable _ (by decide))⟩

/-- A swept peer whose process returns is counted twice by both stores. -/
theorem returning_peer_counted_twice :
    ¬ (∀ maxSegmentsPerPeer s, (TrackerStore.traffic maxSegmentsPerPeer).system.Reachable
          TrafficStore.CountersGrow s →
        (TrackerStore.traffic maxSegmentsPerPeer).CountsLatest s) ∧
      ¬ ∀ maxSegmentsPerPeer s, (SQLiteStore.traffic maxSegmentsPerPeer).system.Reachable
          TrafficStore.CountersGrow s →
        (SQLiteStore.traffic maxSegmentsPerPeer).CountsLatest s := by
  constructor
  · intro h
    have hcounts := h 9 _ (TrafficStore.after_reachable (TrackerStore.traffic 9)
      (show TransitionSystem.RunOk _ _ _ returningPeer by decide))
    have htwice := congrFun (hcounts.1 "live" "p") .bytesUploadedP2P
    revert htwice
    decide
  · intro h
    have hcounts := h 9 _ (TrafficStore.after_reachable (SQLiteStore.traffic 9)
      (show TransitionSystem.RunOk _ _ _ returningPeer by decide))
    have htwice := congrFun (hcounts.1 "live" "p") .bytesUploadedP2P
    revert htwice
    decide

end OpenStreamGrid
