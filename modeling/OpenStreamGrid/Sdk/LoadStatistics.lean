import OpenStreamGrid.Common.TrafficTally
import OpenStreamGrid.Sdk.SegmentLoading

/-!
# The statistics of a load

`loadUncachedSegment` again, with the bytes it handles and the counters it updates.
Time is left out: a timer that is armed may fire at any moment. A budget that ends
aborts the probes, which then settle one by one as any other.
-/

namespace OpenStreamGrid

namespace Sdk

/-- One peer's answer, from the request to the check of its bytes. -/
inductive PeerProbe where
  | requesting
  | verifying (data : List UInt8)
  | delivered (data : List UInt8)
  | failed
deriving DecidableEq

/-- What the check of bytes against the sidecar comes to. -/
inductive HashCheck where
  | matching
  | different
  /-- The sidecar is missing, unreachable or no hash. -/
  | unavailable
deriving DecidableEq

inductive OriginFetch where
  /-- The peers have not been given up. -/
  | idle
  | waitingForHedge
  | requesting
  | verifying (data : List UInt8)
  | failed
deriving DecidableEq

inductive LoadResult where
  | p2p (data : List UInt8)
  | origin (data : List UInt8) (unverified : Bool)
deriving DecidableEq

structure CountedLoad where
  verifier : Bool
  hedged : Bool
  probes : List PeerProbe
  /-- A budget for the peers is set and has not ended. -/
  budgetTimer : Bool
  /-- `peerController.signal.aborted`, by the budget -/
  budgetExpired : Bool
  /-- `peerFailed` of a hedged load -/
  peerFailed : Bool
  origin : OriginFetch
  /-- `none` within is a rejected promise. -/
  outcome : Option (Option LoadResult)
  /-- What this load has added to the plugin's statistics. -/
  stats : PeerTrafficStats
deriving DecidableEq

namespace CountedLoad

inductive Event where
  /-- A peer's bytes arrive, whatever they are. -/
  | peerAnswers (probe : ℕ) (data : List UInt8)
  /-- A peer's request fails, times out or is aborted. -/
  | peerFails (probe : ℕ)
  | peerChecked (probe : ℕ) (check : HashCheck)
  | budgetEnds
  | hedgeDelayEnds
  | originAnswers (data : List UInt8)
  | originFails
  | originChecked (check : HashCheck)
deriving DecidableEq

def count (load : CountedLoad) (key : PeerTrafficStatKey) (n : ℕ) : CountedLoad :=
  { load with stats := countTraffic load.stats key n }

/-- `fetchFromOrigin` begins. -/
def startOrigin (load : CountedLoad) : CountedLoad :=
  { load.count .originRequests 1 with origin := .requesting }

def completeSegmentLoad (load : CountedLoad) (result : LoadResult) : CountedLoad :=
  let load := { load with outcome := some (some result) }
  match result with
  | .p2p data => (load.count .bytesDownloadedP2P data.length).count .p2pSuccesses 1
  | .origin data _ => load.count .bytesDownloadedOrigin data.length

def reject (load : CountedLoad) : CountedLoad := { load with outcome := some none }

/-- The peers are given up for the budget. -/
def p2pExceeded (load : CountedLoad) : CountedLoad :=
  (load.count .p2pFailures 1).count .fallbacks 1

/-- `fetchFromPeers` returns, with the bytes of a peer or without. -/
def peersSettle (load : CountedLoad) (result : Option (List UInt8)) : CountedLoad :=
  if load.hedged then
    match result with
    | some data => load.completeSegmentLoad (.p2p data)
    | none =>
        let load := { (load.count .p2pFailures 1).count .fallbacks 1 with peerFailed := true }
        if load.origin = .failed then load.reject else load
  else if load.budgetExpired then load.p2pExceeded.startOrigin
  else
    match result with
    | some data => load.completeSegmentLoad (.p2p data)
    | none => load.startOrigin

/-- A probe changes; the first one with bytes ends the race, and so does the last failure. -/
def setProbe (load : CountedLoad) (i : ℕ) (probe : PeerProbe) : CountedLoad :=
  let load := { load with probes := load.probes.set i probe }
  match probe with
  | .delivered data => load.peersSettle (some data)
  | _ => if ∀ probe ∈ load.probes, probe = .failed then load.peersSettle none else load

/-- The origin's bytes are accepted. -/
def originSettles (load : CountedLoad) (data : List UInt8) (unverified : Bool) : CountedLoad :=
  let load := if load.hedged ∧ ¬load.peerFailed then load.count .fallbacks 1 else load
  load.completeSegmentLoad (.origin data unverified)

def originThrows (load : CountedLoad) : CountedLoad :=
  let load := { load with origin := .failed }
  if load.hedged ∧ ¬load.peerFailed then load else load.reject

/-- The peers are still asked. -/
def racing (load : CountedLoad) : Bool :=
  load.outcome.isNone && !load.peerFailed && (load.hedged || decide (load.origin = .idle))

def probe? (load : CountedLoad) (i : ℕ) : Option PeerProbe :=
  if load.racing then load.probes[i]? else none

def step (load : CountedLoad) : Event → Option CountedLoad
  | .peerAnswers i data =>
      match load.probe? i with
      | some .requesting =>
          some (load.setProbe i (if load.verifier then .verifying data else .delivered data))
      | _ => none
  | .peerFails i =>
      match load.probe? i with
      | some .requesting => some (load.setProbe i .failed)
      | _ => none
  | .peerChecked i check =>
      match load.probe? i with
      | some (.verifying data) =>
          some (match check with
            | .matching => load.setProbe i (.delivered data)
            | .different => (load.count .integrityFailures 1).setProbe i .failed
            | .unavailable => load.setProbe i .failed)
      | _ => none
  | .budgetEnds =>
      if load.budgetTimer ∧ load.racing then
        some { load with budgetTimer := false, budgetExpired := true }
      else none
  | .hedgeDelayEnds =>
      if load.origin = .waitingForHedge ∧ load.outcome = none then some load.startOrigin else none
  | .originAnswers data =>
      if load.origin = .requesting ∧ load.outcome = none then
        some (if load.verifier then { load with origin := .verifying data }
          else load.originSettles data false)
      else none
  | .originFails =>
      if load.origin = .requesting ∧ load.outcome = none then some load.originThrows else none
  | .originChecked check =>
      match load.origin with
      | .verifying data =>
          if load.outcome = none then
            some (match check with
              | .matching => load.originSettles data false
              | .different => (load.count .integrityFailures 1).originThrows
              | .unavailable => load.originSettles data true)
          else none
      | _ => none

/-- The start of a load, with the candidates and the hints of its plan. -/
def loadUncachedSegment (plugin : HlsPlugin) (candidates : List PeerCandidate)
    (execution : Option SegmentExecutionHints) : CountedLoad :=
  let load : CountedLoad :=
    ⟨plugin.verifier, false, (candidates.take MAX_PARALLEL_PEER_PROBES).map fun _ => .requesting,
      false, false, false, .idle, none, 0⟩
  if candidates = [] then load.startOrigin
  else
    let load := load.count .p2pRequests 1
    if execution.map SegmentExecutionHints.strategy = some .hedgedOrigin then
      { load with hedged := true, origin := .waitingForHedge }
    else
      { load with
        budgetTimer := (peerPhaseBudgetMs plugin
          (execution.bind SegmentExecutionHints.deadlineSlackMs)).isSome }

def system : TransitionSystem CountedLoad Event where
  init load := ∃ plugin candidates execution,
    load = loadUncachedSegment plugin candidates execution
  step := step

/-! ## Counting once -/

end CountedLoad

namespace LoadResult

def p2pBytes : LoadResult → ℕ
  | .p2p data => data.length
  | .origin _ _ => 0

def originBytes : LoadResult → ℕ
  | .p2p _ => 0
  | .origin data _ => data.length

end LoadResult

namespace CountedLoad

/-- The peers were given up without usable bytes: all failed, or their budget ended. -/
def PeerPhaseFailed (load : CountedLoad) : Prop :=
  load.budgetExpired = true ∨ ∀ probe ∈ load.probes, probe = .failed

instance (load : CountedLoad) : Decidable load.PeerPhaseFailed :=
  inferInstanceAs (Decidable (_ ∨ _))

/-- What is expected of the counters of a load with this result. -/
structure CountsOnce (load : CountedLoad) (result : LoadResult) : Prop where
  p2pBytes : load.stats .bytesDownloadedP2P = result.p2pBytes
  originBytes : load.stats .bytesDownloadedOrigin = result.originBytes
  fallbacks : ∀ data unverified, result = .origin data unverified →
    0 < load.stats .p2pRequests → load.stats .fallbacks = 1
  p2pFailures : ∀ data unverified, result = .origin data unverified →
    0 < load.stats .p2pRequests →
      load.stats .p2pFailures = if load.PeerPhaseFailed then 1 else 0

/-- The event is the failure of the last probe. -/
def LosesLastProbe (load : CountedLoad) : Event → Prop
  | .peerFails i => ∀ probe ∈ load.probes.set i .failed, probe = .failed
  | .peerChecked i check => check ≠ .matching ∧ ∀ probe ∈ load.probes.set i .failed, probe = .failed
  | _ => False

/-- The last probe fails only where the load is hedged or the budget has ended before. -/
def Orderly (load : CountedLoad) (event : Event) : Prop :=
  load.LosesLastProbe event → load.hedged = true ∨ load.budgetExpired = true

/-! ### The phases of a load -/

/-- Peers were asked and have not been settled. -/
structure Asking (load : CountedLoad) : Prop where
  outcome : load.outcome = none
  peerFailed : load.peerFailed = false
  tally : Tally load.stats 1 0 0 0 0 0

/-- Peers alone. -/
structure Racing (load : CountedLoad) : Prop extends Asking load where
  hedged : load.hedged = false
  origin : load.origin = .idle
  open_probe : ∃ probe ∈ load.probes, probe ≠ .failed

/-- Peers and, after its delay, the origin. -/
structure Hedging (load : CountedLoad) : Prop extends Asking load where
  hedged : load.hedged = true
  budgetTimer : load.budgetTimer = false
  budgetExpired : load.budgetExpired = false
  open_probe : ∃ probe ∈ load.probes, probe ≠ .failed

/-- The origin of a hedged load whose peers have failed. -/
structure HedgeLeft (load : CountedLoad) : Prop where
  outcome : load.outcome = none
  hedged : load.hedged = true
  peerFailed : load.peerFailed = true
  probes : ∀ probe ∈ load.probes, probe = .failed
  tally : Tally load.stats 1 0 1 1 0 0

/-- The origin alone: there are no peers, or their budget has ended. -/
structure Fetching (load : CountedLoad) : Prop where
  outcome : load.outcome = none
  hedged : load.hedged = false
  peerFailed : load.peerFailed = false
  origin : load.origin ≠ .idle
  tally : Tally load.stats 0 0 0 0 0 0 ∨ load.budgetExpired = true ∧ Tally load.stats 1 0 1 1 0 0

/-- The load is over, and what it returned was counted once. -/
structure Settled (load : CountedLoad) : Prop where
  outcome : load.outcome.isSome
  counted : ∀ result, load.outcome = some (some result) → load.CountsOnce result

inductive Counted (load : CountedLoad) : Prop where
  | racing (h : load.Racing)
  | hedging (h : load.Hedging)
  | hedgeLeft (h : load.HedgeLeft)
  | fetching (h : load.Fetching)
  | settled (h : load.Settled)

/-- The peers have all failed and were not counted as failed; only the origin can end the load. -/
structure Missed (load : CountedLoad) : Prop where
  hedged : load.hedged = false
  origin : load.origin ≠ .idle
  requests : load.stats .p2pRequests = 1
  fallbacks : load.stats .fallbacks = 0
  outcome : ∀ data, load.outcome ≠ some (some (.p2p data))

variable {load load' : CountedLoad}

/-! ### The ends of a load -/

theorem settled_reject : Settled load.reject where
  outcome := rfl
  counted result h := by cases h

theorem settled_p2p {failures fallbacks : ℕ} (h : Tally load.stats 1 0 failures fallbacks 0 0)
    (data : List UInt8) : Settled (load.completeSegmentLoad (.p2p data)) := by
  have htally := (h.p2pBytes data.length).success
  simp only [Nat.zero_add] at htally
  refine ⟨rfl, fun result hresult => ?_⟩
  obtain rfl := Option.some.inj (Option.some.inj hresult)
  exact ⟨htally.p2p, htally.origin, fun _ _ hfalse => LoadResult.noConfusion hfalse,
    fun _ _ hfalse => LoadResult.noConfusion hfalse⟩

/-- The origin's bytes, after peers were asked. -/
theorem settled_origin {failures : ℕ} (h : Tally load.stats 1 0 failures 1 0 0)
    (hfailures : failures = if load.PeerPhaseFailed then 1 else 0) (data : List UInt8)
    (unverified : Bool) : Settled (load.completeSegmentLoad (.origin data unverified)) := by
  have htally := h.originBytes data.length
  rw [Nat.zero_add] at htally
  refine ⟨rfl, fun result hresult => ?_⟩
  obtain rfl := Option.some.inj (Option.some.inj hresult)
  exact ⟨htally.p2p, htally.origin, fun _ _ _ _ => htally.fallbacks,
    fun _ _ _ _ => htally.failures.trans hfailures⟩

/-- The origin's bytes of a load without peers. -/
theorem settled_origin_alone (h : Tally load.stats 0 0 0 0 0 0) (data : List UInt8)
    (unverified : Bool) : Settled (load.completeSegmentLoad (.origin data unverified)) := by
  have htally := h.originBytes data.length
  rw [Nat.zero_add] at htally
  refine ⟨rfl, fun result hresult => ?_⟩
  obtain rfl := Option.some.inj (Option.some.inj hresult)
  have hnone : ¬0 < (load.completeSegmentLoad (.origin data unverified)).stats .p2pRequests := by
    show ¬0 < countTraffic load.stats .bytesDownloadedOrigin data.length .p2pRequests
    rw [htally.requests]
    exact Nat.lt_irrefl 0
  exact ⟨htally.p2p, htally.origin, fun _ _ _ hpos => absurd hpos hnone,
    fun _ _ _ hpos => absurd hpos hnone⟩

/-! ### The origin -/

namespace Hedging

theorem originSettles (h : load.Hedging) (data : List UInt8) (unverified : Bool) :
    Settled (load.originSettles data unverified) := by
  have hopen : ¬load.PeerPhaseFailed := by
    rintro (hexpired | hfailed)
    · cases h.budgetExpired.symm.trans hexpired
    · rcases h.open_probe with ⟨probe, hmem, hnot⟩
      exact hnot (hfailed probe hmem)
  unfold CountedLoad.originSettles
  rw [if_pos ⟨h.hedged, by rw [h.peerFailed]; exact Bool.false_ne_true⟩]
  have htally : Tally (load.count .fallbacks 1).stats 1 0 0 1 0 0 := h.tally.fallback
  exact settled_origin htally (if_neg hopen).symm data unverified

theorem originThrows (h : load.Hedging) : Hedging load.originThrows := by
  unfold CountedLoad.originThrows
  rw [if_pos ⟨h.hedged, by
    show load.peerFailed ≠ true
    rw [h.peerFailed]
    exact Bool.false_ne_true⟩]
  exact ⟨⟨h.outcome, h.peerFailed, h.tally⟩, h.hedged, h.budgetTimer, h.budgetExpired, h.open_probe⟩

end Hedging

namespace HedgeLeft

theorem originSettles (h : load.HedgeLeft) (data : List UInt8) (unverified : Bool) :
    Settled (load.originSettles data unverified) := by
  unfold CountedLoad.originSettles
  rw [if_neg fun hboth => hboth.2 h.peerFailed]
  exact settled_origin h.tally (if_pos (Or.inr h.probes)).symm data unverified

theorem originThrows (h : load.HedgeLeft) : Settled load.originThrows := by
  unfold CountedLoad.originThrows
  rw [if_neg fun hboth => hboth.2 h.peerFailed]
  exact settled_reject

end HedgeLeft

namespace Fetching

theorem originSettles (h : load.Fetching) (data : List UInt8) (unverified : Bool) :
    Settled (load.originSettles data unverified) := by
  unfold CountedLoad.originSettles
  rw [if_neg fun hboth => Bool.false_ne_true (h.hedged.symm.trans hboth.1)]
  rcases h.tally with htally | ⟨hexpired, htally⟩
  · exact settled_origin_alone htally data unverified
  · exact settled_origin htally (if_pos (Or.inl hexpired)).symm data unverified

theorem originThrows (h : load.Fetching) : Settled load.originThrows := by
  unfold CountedLoad.originThrows
  rw [if_neg fun hboth => Bool.false_ne_true (h.hedged.symm.trans hboth.1)]
  exact settled_reject

end Fetching

/-! ### The peers -/

namespace Asking

/-- The budget is over: the peers are given up, and the origin is asked. -/
theorem expires (h : load.Asking) (hhedged : ¬ load.hedged = true)
    (hexpired : load.budgetExpired = true) : Fetching load.p2pExceeded.startOrigin where
  outcome := h.outcome
  hedged := Bool.eq_false_iff.mpr hhedged
  peerFailed := h.peerFailed
  origin hfalse := OriginFetch.noConfusion hfalse
  tally := Or.inr ⟨hexpired, h.tally.failure.fallback.originRequest⟩

theorem delivers (h : load.Asking) (data : List UInt8) :
    Counted (load.peersSettle (some data)) := by
  unfold CountedLoad.peersSettle
  dsimp only
  split_ifs with hhedged hexpired
  · exact .settled (settled_p2p h.tally data)
  · exact .fetching (h.expires hhedged hexpired)
  · exact .settled (settled_p2p h.tally data)

/-- The failure of all peers is counted with a hedge, and after the end of the budget. -/
theorem exhausted (h : load.Asking) (hfailed : ∀ probe ∈ load.probes, probe = .failed)
    (hok : load.hedged = true ∨ load.budgetExpired = true) : Counted (load.peersSettle none) := by
  unfold CountedLoad.peersSettle
  dsimp only
  split_ifs with hhedged horigin hexpired
  · exact .settled settled_reject
  · exact .hedgeLeft ⟨h.outcome, hhedged, rfl, hfailed, h.tally.failure.fallback⟩
  · exact .fetching (h.expires hhedged hexpired)
  · exact absurd hok (not_or.mpr ⟨hhedged, hexpired⟩)

/-- Else it is not. -/
theorem missed (h : load.Asking) (hok : ¬(load.hedged = true ∨ load.budgetExpired = true)) :
    Missed (load.peersSettle none) := by
  obtain ⟨hhedged, hexpired⟩ := not_or.mp hok
  unfold CountedLoad.peersSettle
  rw [if_neg hhedged, if_neg hexpired]
  refine ⟨Bool.eq_false_iff.mpr hhedged, fun hfalse => OriginFetch.noConfusion hfalse,
    h.tally.requests, h.tally.fallbacks, fun data hfalse => ?_⟩
  cases h.outcome.symm.trans hfalse

end Asking

/-- While a probe is open the peers go on. -/
theorem open_of_not_all {probes : List PeerProbe} (h : ¬∀ probe ∈ probes, probe = .failed) :
    ∃ probe ∈ probes, probe ≠ .failed := by
  by_contra hnone
  apply h
  intro probe hmem
  by_contra hnot
  exact hnone ⟨probe, hmem, hnot⟩

/-- A probe that does not end the race. -/
theorem setProbe_counted (hgoes : ∀ probes, (∃ probe ∈ probes, probe ≠ .failed) →
      Counted { load with probes := probes }) (h : load.Asking) (i : ℕ) (probe : PeerProbe)
    (hok : (∀ other ∈ load.probes.set i probe, other = .failed) →
      load.hedged = true ∨ load.budgetExpired = true) : Counted (load.setProbe i probe) := by
  have hasking : ∀ probes, Asking { load with probes := probes } :=
    fun _ => ⟨h.outcome, h.peerFailed, h.tally⟩
  unfold CountedLoad.setProbe
  dsimp only
  cases probe with
  | delivered data => exact (hasking _).delivers data
  | requesting | verifying | failed =>
      dsimp only
      split_ifs with hall
      · exact (hasking _).exhausted hall (hok hall)
      · exact hgoes _ (open_of_not_all hall)

theorem Racing.setProbe (h : load.Racing) (i : ℕ) (probe : PeerProbe)
    (hok : (∀ other ∈ load.probes.set i probe, other = .failed) →
      load.hedged = true ∨ load.budgetExpired = true) : Counted (load.setProbe i probe) := by
  refine setProbe_counted (fun probes hopen => ?_) h.toAsking i probe hok
  exact .racing ⟨⟨h.outcome, h.peerFailed, h.tally⟩, h.hedged, h.origin, hopen⟩

theorem Hedging.setProbe (h : load.Hedging) (i : ℕ) (probe : PeerProbe) :
    Counted (load.setProbe i probe) := by
  refine setProbe_counted (fun probes hopen => ?_) h.toAsking i probe fun _ => Or.inl h.hedged
  exact .hedging ⟨⟨h.outcome, h.peerFailed, h.tally⟩, h.hedged, h.budgetTimer, h.budgetExpired,
    hopen⟩

/-! ### Steps -/

theorem Racing.count_integrityFailures (h : load.Racing) :
    Racing (load.count .integrityFailures 1) :=
  ⟨⟨h.outcome, h.peerFailed, h.tally.integrityFailure⟩, h.hedged, h.origin, h.open_probe⟩

theorem Hedging.count_integrityFailures (h : load.Hedging) :
    Hedging (load.count .integrityFailures 1) :=
  ⟨⟨h.outcome, h.peerFailed, h.tally.integrityFailure⟩, h.hedged, h.budgetTimer, h.budgetExpired,
    h.open_probe⟩

theorem HedgeLeft.count_integrityFailures (h : load.HedgeLeft) :
    HedgeLeft (load.count .integrityFailures 1) :=
  ⟨h.outcome, h.hedged, h.peerFailed, h.probes, h.tally.integrityFailure⟩

theorem Fetching.count_integrityFailures (h : load.Fetching) :
    Fetching (load.count .integrityFailures 1) :=
  ⟨h.outcome, h.hedged, h.peerFailed, h.origin,
    h.tally.imp Tally.integrityFailure fun hexpired => ⟨hexpired.1, hexpired.2.integrityFailure⟩⟩

/-- What a step can do. -/
inductive Effect (load : CountedLoad) (event : Event) : CountedLoad → Prop where
  | probe (i : ℕ) (probe : PeerProbe) (hracing : load.racing = true)
      (hlast : (∀ other ∈ load.probes.set i probe, other = .failed) → load.LosesLastProbe event) :
      Effect load event (load.setProbe i probe)
  | badProbe (i : ℕ) (hracing : load.racing = true)
      (hlast : (∀ other ∈ load.probes.set i .failed, other = .failed) →
        load.LosesLastProbe event) :
      Effect load event ((load.count .integrityFailures 1).setProbe i .failed)
  | budget (hracing : load.racing = true) (htimer : load.budgetTimer = true) :
      Effect load event { load with budgetTimer := false, budgetExpired := true }
  | hedge (horigin : load.origin = .waitingForHedge) (houtcome : load.outcome = none) :
      Effect load event load.startOrigin
  | answered (data : List UInt8) (horigin : load.origin = .requesting)
      (houtcome : load.outcome = none) :
      Effect load event { load with origin := .verifying data }
  | originThrows (horigin : load.origin ≠ .idle) (houtcome : load.outcome = none) :
      Effect load event load.originThrows
  | badOrigin (horigin : load.origin ≠ .idle) (houtcome : load.outcome = none) :
      Effect load event (load.count .integrityFailures 1).originThrows
  | originSettles (data : List UInt8) (unverified : Bool) (horigin : load.origin ≠ .idle)
      (houtcome : load.outcome = none) : Effect load event (load.originSettles data unverified)

/-- A probe is looked at only while the peers race. -/
theorem of_probe?_eq_some {i : ℕ} {probe : PeerProbe} (h : load.probe? i = some probe) :
    load.racing = true ∧ i < load.probes.length := by
  unfold probe? at h
  split_ifs at h with hracing
  exact ⟨hracing, (List.getElem?_eq_some_iff.mp h).1⟩

/-- A probe that has not failed is none of the failed. -/
theorem not_all_set {i : ℕ} {probe : PeerProbe} (hi : i < load.probes.length)
    (hprobe : probe ≠ .failed) : ¬∀ other ∈ load.probes.set i probe, other = .failed := by
  intro hall
  have hmem : probe ∈ load.probes.set i probe :=
    List.mem_iff_getElem.mpr ⟨i, by rwa [List.length_set], List.getElem_set_self _⟩
  exact hprobe (hall probe hmem)

theorem effect_of_step {event : Event} (hstep : load.step event = some load') :
    Effect load event load' := by
  cases event with
  | peerAnswers i data =>
      simp only [CountedLoad.step] at hstep
      split at hstep
      · rename_i hprobe
        obtain ⟨hracing, hi⟩ := of_probe?_eq_some hprobe
        obtain rfl := Option.some.inj hstep
        refine .probe i _ hracing fun hall => absurd hall (not_all_set hi ?_)
        split_ifs
        · exact fun hfalse => PeerProbe.noConfusion hfalse
        · exact fun hfalse => PeerProbe.noConfusion hfalse
      · cases hstep
  | peerFails i =>
      simp only [CountedLoad.step] at hstep
      split at hstep
      · rename_i hprobe
        obtain rfl := Option.some.inj hstep
        exact .probe i .failed (of_probe?_eq_some hprobe).1 id
      · cases hstep
  | peerChecked i check =>
      simp only [CountedLoad.step] at hstep
      split at hstep
      · rename_i data hprobe
        obtain ⟨hracing, hi⟩ := of_probe?_eq_some hprobe
        obtain rfl := Option.some.inj hstep
        cases check with
        | matching =>
            refine .probe i _ hracing fun hall => absurd hall (not_all_set hi ?_)
            exact fun hfalse => PeerProbe.noConfusion hfalse
        | different =>
            exact .badProbe i hracing fun hall => ⟨fun hfalse => HashCheck.noConfusion hfalse, hall⟩
        | unavailable =>
            exact .probe i _ hracing fun hall => ⟨fun hfalse => HashCheck.noConfusion hfalse, hall⟩
      · cases hstep
  | budgetEnds =>
      simp only [CountedLoad.step] at hstep
      split_ifs at hstep with henabled
      obtain rfl := Option.some.inj hstep
      exact .budget henabled.2 henabled.1
  | hedgeDelayEnds =>
      simp only [CountedLoad.step] at hstep
      split_ifs at hstep with henabled
      obtain rfl := Option.some.inj hstep
      exact .hedge henabled.1 henabled.2
  | originAnswers data =>
      simp only [CountedLoad.step] at hstep
      split_ifs at hstep with henabled hverifier
      · obtain rfl := Option.some.inj hstep
        exact .answered data henabled.1 henabled.2
      · obtain rfl := Option.some.inj hstep
        exact .originSettles data false (by rw [henabled.1]; exact fun h => by cases h) henabled.2
  | originFails =>
      simp only [CountedLoad.step] at hstep
      split_ifs at hstep with henabled
      obtain rfl := Option.some.inj hstep
      exact .originThrows (by rw [henabled.1]; exact fun h => by cases h) henabled.2
  | originChecked check =>
      simp only [CountedLoad.step] at hstep
      split at hstep
      · rename_i data horigin
        split_ifs at hstep with houtcome
        obtain rfl := Option.some.inj hstep
        have hbusy : load.origin ≠ .idle := by
          rw [horigin]
          exact fun h => by cases h
        cases check with
        | matching => exact .originSettles data false hbusy houtcome
        | different => exact .badOrigin hbusy houtcome
        | unavailable => exact .originSettles data true hbusy houtcome
      · cases hstep

theorem Racing.step (h : load.Racing) {event : Event} (hok : load.Orderly event)
    (heffect : Effect load event load') : Counted load' := by
  cases heffect with
  | probe i probe hracing hlast => exact h.setProbe i probe fun hall => hok (hlast hall)
  | badProbe i hracing hlast =>
      exact h.count_integrityFailures.setProbe i .failed fun hall => hok (hlast hall)
  | budget =>
      exact .racing ⟨⟨h.outcome, h.peerFailed, h.tally⟩, h.hedged, h.origin, h.open_probe⟩
  | hedge horigin => cases h.origin.symm.trans horigin
  | answered _ horigin => cases h.origin.symm.trans horigin
  | originThrows horigin => exact absurd h.origin horigin
  | badOrigin horigin => exact absurd h.origin horigin
  | originSettles _ _ horigin => exact absurd h.origin horigin

theorem Hedging.step (h : load.Hedging) {event : Event} (heffect : Effect load event load') :
    Counted load' := by
  cases heffect with
  | probe i probe => exact h.setProbe i probe
  | badProbe i => exact h.count_integrityFailures.setProbe i .failed
  | budget _ htimer => cases h.budgetTimer.symm.trans htimer
  | hedge =>
      exact .hedging ⟨⟨h.outcome, h.peerFailed, h.tally.originRequest⟩, h.hedged, h.budgetTimer,
        h.budgetExpired, h.open_probe⟩
  | answered =>
      exact .hedging ⟨⟨h.outcome, h.peerFailed, h.tally⟩, h.hedged, h.budgetTimer, h.budgetExpired,
        h.open_probe⟩
  | originThrows => exact .hedging h.originThrows
  | badOrigin => exact .hedging h.count_integrityFailures.originThrows
  | originSettles data unverified => exact .settled (h.originSettles data unverified)

/-- The peers of the load are not asked any more. -/
theorem HedgeLeft.not_racing (h : load.HedgeLeft) : load.racing ≠ true := by
  unfold racing
  rw [h.peerFailed]
  simp

theorem HedgeLeft.step (h : load.HedgeLeft) {event : Event} (heffect : Effect load event load') :
    Counted load' := by
  cases heffect with
  | probe _ _ hracing => exact absurd hracing h.not_racing
  | badProbe _ hracing => exact absurd hracing h.not_racing
  | budget hracing => exact absurd hracing h.not_racing
  | hedge => exact .hedgeLeft ⟨h.outcome, h.hedged, h.peerFailed, h.probes, h.tally.originRequest⟩
  | answered => exact .hedgeLeft ⟨h.outcome, h.hedged, h.peerFailed, h.probes, h.tally⟩
  | originThrows => exact .settled h.originThrows
  | badOrigin => exact .settled h.count_integrityFailures.originThrows
  | originSettles data unverified => exact .settled (h.originSettles data unverified)

theorem not_racing_of_origin (hhedged : load.hedged = false) (horigin : load.origin ≠ .idle) :
    load.racing ≠ true := by
  unfold racing
  rw [hhedged]
  simp [horigin]

theorem Fetching.step (h : load.Fetching) {event : Event} (heffect : Effect load event load') :
    Counted load' := by
  have hracing := not_racing_of_origin h.hedged h.origin
  cases heffect with
  | probe _ _ hfalse => exact absurd hfalse hracing
  | badProbe _ hfalse => exact absurd hfalse hracing
  | budget hfalse => exact absurd hfalse hracing
  | hedge =>
      exact .fetching ⟨h.outcome, h.hedged, h.peerFailed,
        fun hfalse => OriginFetch.noConfusion hfalse,
        h.tally.imp Tally.originRequest fun hexpired => ⟨hexpired.1, hexpired.2.originRequest⟩⟩
  | answered =>
      exact .fetching ⟨h.outcome, h.hedged, h.peerFailed,
        fun hfalse => OriginFetch.noConfusion hfalse,
        h.tally⟩
  | originThrows => exact .settled h.originThrows
  | badOrigin => exact .settled h.count_integrityFailures.originThrows
  | originSettles data unverified => exact .settled (h.originSettles data unverified)

/-- Nothing happens to a load that is over. -/
theorem Settled.no_effect (h : load.Settled) {event : Event} : ¬Effect load event load' := by
  have hover : load.outcome ≠ none := by
    intro hnone
    have hsome := h.outcome
    rw [hnone] at hsome
    cases hsome
  have hracing : load.racing ≠ true := by
    unfold racing
    cases houtcome : load.outcome with
    | none => exact absurd houtcome hover
    | some outcome => simp
  intro heffect
  cases heffect with
  | probe _ _ hfalse => exact hracing hfalse
  | badProbe _ hfalse => exact hracing hfalse
  | budget hfalse => exact hracing hfalse
  | hedge _ hfalse => exact hover hfalse
  | answered _ _ hfalse => exact hover hfalse
  | originThrows _ hfalse => exact hover hfalse
  | badOrigin _ hfalse => exact hover hfalse
  | originSettles _ _ _ hfalse => exact hover hfalse

theorem Counted.step (h : load.Counted) {event : Event} (hok : load.Orderly event)
    (hstep : load.step event = some load') : Counted load' := by
  have heffect := effect_of_step hstep
  cases h with
  | racing h => exact h.step hok heffect
  | hedging h => exact h.step heffect
  | hedgeLeft h => exact h.step heffect
  | fetching h => exact h.step heffect
  | settled h => exact absurd heffect h.no_effect

theorem Racing.setProbe_missed (h : load.Racing) {i : ℕ}
    (hall : ∀ other ∈ load.probes.set i .failed, other = .failed)
    (hexpired : load.budgetExpired ≠ true) : Missed (load.setProbe i .failed) := by
  unfold CountedLoad.setProbe
  dsimp only
  rw [if_pos hall]
  have hasking : Asking { load with probes := load.probes.set i .failed } :=
    ⟨h.outcome, h.peerFailed, h.tally⟩
  apply hasking.missed
  rintro (hhedged | hend)
  · cases h.hedged.symm.trans hhedged
  · exact hexpired hend

/-- A step out of order leaves the failure of the peers uncounted. -/
theorem Racing.breaks (h : load.Racing) {event : Event} (hlast : load.LosesLastProbe event)
    (hexpired : load.budgetExpired ≠ true) (hstep : load.step event = some load') :
    Missed load' := by
  cases event with
  | peerFails i =>
      simp only [CountedLoad.step] at hstep
      split at hstep
      · obtain rfl := Option.some.inj hstep
        exact h.setProbe_missed hlast hexpired
      · cases hstep
  | peerChecked i check =>
      obtain ⟨hbad, hall⟩ := hlast
      simp only [CountedLoad.step] at hstep
      split at hstep
      · obtain rfl := Option.some.inj hstep
        cases check with
        | matching => exact absurd rfl hbad
        | different => exact h.count_integrityFailures.setProbe_missed hall hexpired
        | unavailable => exact h.setProbe_missed hall hexpired
      · cases hstep
  | peerAnswers | budgetEnds | hedgeDelayEnds | originAnswers | originFails | originChecked =>
      exact hlast.elim

/-- Only while peers race is a last probe lost. -/
theorem LosesLastProbe.racing {event : Event} (h : load.LosesLastProbe event)
    (hstep : load.step event = some load') : load.racing = true := by
  cases event with
  | peerFails i | peerChecked i =>
      simp only [CountedLoad.step] at hstep
      split at hstep
      · rename_i hprobe
        exact (of_probe?_eq_some hprobe).1
      · cases hstep
  | peerAnswers | budgetEnds | hedgeDelayEnds | originAnswers | originFails | originChecked =>
      exact h.elim

theorem Counted.breaks (h : load.Counted) {event : Event} (hbad : ¬load.Orderly event)
    (hstep : load.step event = some load') : Missed load' := by
  unfold Orderly at hbad
  push Not at hbad
  obtain ⟨hlast, hhedged, hexpired⟩ := hbad
  cases h with
  | racing h => exact h.breaks hlast hexpired hstep
  | hedging h => exact absurd h.hedged hhedged
  | hedgeLeft h => exact absurd h.hedged hhedged
  | fetching h =>
      exact absurd (hlast.racing hstep) (not_racing_of_origin h.hedged h.origin)
  | settled h => exact absurd (effect_of_step hstep) h.no_effect

theorem Missed.originThrows (h : load.Missed) : Missed load.originThrows := by
  unfold CountedLoad.originThrows
  rw [if_neg fun hboth => Bool.false_ne_true (h.hedged.symm.trans hboth.1)]
  exact ⟨h.hedged, fun hfalse => OriginFetch.noConfusion hfalse, h.requests, h.fallbacks,
    fun _ hfalse => by cases hfalse⟩

theorem Missed.originSettles (h : load.Missed) (data : List UInt8) (unverified : Bool) :
    Missed (load.originSettles data unverified) := by
  unfold CountedLoad.originSettles
  rw [if_neg fun hboth => Bool.false_ne_true (h.hedged.symm.trans hboth.1)]
  exact ⟨h.hedged, h.origin, h.requests, h.fallbacks, fun _ hfalse => by cases hfalse⟩

/-- Nothing counts it later. -/
theorem Missed.step (h : load.Missed) {event : Event} (hstep : load.step event = some load') :
    Missed load' := by
  have hracing := not_racing_of_origin h.hedged h.origin
  cases effect_of_step hstep with
  | probe _ _ hfalse => exact absurd hfalse hracing
  | badProbe _ hfalse => exact absurd hfalse hracing
  | budget hfalse => exact absurd hfalse hracing
  | hedge =>
      exact ⟨h.hedged, fun hfalse => OriginFetch.noConfusion hfalse, h.requests, h.fallbacks,
        h.outcome⟩
  | answered =>
      exact ⟨h.hedged, fun hfalse => OriginFetch.noConfusion hfalse, h.requests, h.fallbacks,
        h.outcome⟩
  | originThrows => exact h.originThrows
  | badOrigin =>
      have hcounted : Missed (load.count .integrityFailures 1) :=
        ⟨h.hedged, h.origin, h.requests, h.fallbacks, h.outcome⟩
      exact hcounted.originThrows
  | originSettles data unverified => exact h.originSettles data unverified

/-- With peers to ask, there is a probe. -/
theorem requesting_probe {candidates : List PeerCandidate} (h : candidates ≠ []) :
    ∃ probe ∈ (candidates.take MAX_PARALLEL_PEER_PROBES).map fun _ => PeerProbe.requesting,
      probe ≠ .failed := by
  cases candidates with
  | nil => exact absurd rfl h
  | cons candidate rest =>
      exact ⟨.requesting, List.mem_cons_self, fun hfalse => PeerProbe.noConfusion hfalse⟩

theorem counted_loadUncachedSegment (plugin : HlsPlugin) (candidates : List PeerCandidate)
    (execution : Option SegmentExecutionHints) :
    Counted (loadUncachedSegment plugin candidates execution) := by
  unfold loadUncachedSegment
  dsimp only
  split_ifs with hnone hhedged
  · exact .fetching ⟨rfl, rfl, rfl, fun hfalse => OriginFetch.noConfusion hfalse,
      Or.inl Tally.zero.originRequest⟩
  · exact .hedging ⟨⟨rfl, rfl, Tally.zero.request⟩, rfl, rfl, rfl, requesting_probe hnone⟩
  · exact .racing ⟨⟨rfl, rfl, Tally.zero.request⟩, rfl, rfl, requesting_probe hnone⟩

/-! ### Every load -/

variable {plugin : HlsPlugin} {candidates : List PeerCandidate}
  {execution : Option SegmentExecutionHints} {events : List Event} {result : LoadResult}

/-- A load that returns bytes is counted once just where its last probe never fails with no
hedge to count it and no budget ended before. -/
theorem load_counts_once_iff
    (hrun : system.run (loadUncachedSegment plugin candidates execution) events = some load)
    (houtcome : load.outcome = some (some result)) :
    load.CountsOnce result ↔
      system.RunOk Orderly (loadUncachedSegment plugin candidates execution) events := by
  have hstart := counted_loadUncachedSegment plugin candidates execution
  rcases system.run_dichotomy (fun _ _ _ h => h.step) (fun _ _ _ h => h.breaks)
    (fun _ _ _ h => h.step) hstart hrun with ⟨hok, hcounted⟩ | ⟨hbad, hmissed⟩
  · refine iff_of_true ?_ hok
    cases hcounted with
    | racing h => cases h.outcome.symm.trans houtcome
    | hedging h => cases h.outcome.symm.trans houtcome
    | hedgeLeft h => cases h.outcome.symm.trans houtcome
    | fetching h => cases h.outcome.symm.trans houtcome
    | settled h => exact h.counted result houtcome
  · refine iff_of_false (fun hcounted => ?_) hbad
    cases result with
    | p2p data => exact hmissed.outcome data houtcome
    | origin data unverified =>
        have hpos : 0 < load.stats .p2pRequests := hmissed.requests ▸ Nat.zero_lt_one
        have hone := hcounted.fallbacks data unverified rfl hpos
        exact absurd (hmissed.fallbacks.symm.trans hone) Nat.zero_ne_one

/-- A load with one peer to ask and no deadline. -/
def lonePeerLoad : CountedLoad := loadUncachedSegment bufferedViewer [nearPeer] none

/-- The peer sends bytes of another segment, then the origin the right ones. -/
theorem load_counts_once_iff_wrongBytes :
    CountsOnce ⟨true, false, [.failed], false, false, false, .verifying [5, 6],
        some (some (.origin [5, 6] false)),
        countTraffic (countTraffic (countTraffic (countTraffic 0 .p2pRequests 1)
          .integrityFailures 1) .originRequests 1) .bytesDownloadedOrigin 2⟩
        (.origin [5, 6] false) ↔
      system.RunOk Orderly lonePeerLoad [.peerAnswers 0 [1], .peerChecked 0 .different,
        .originAnswers [5, 6], .originChecked .matching] := by
  have hrun : system.run lonePeerLoad [.peerAnswers 0 [1], .peerChecked 0 .different,
      .originAnswers [5, 6], .originChecked .matching] =
        some ⟨true, false, [.failed], false, false, false, .verifying [5, 6],
          some (some (.origin [5, 6] false)),
          countTraffic (countTraffic (countTraffic (countTraffic 0 .p2pRequests 1)
            .integrityFailures 1) .originRequests 1) .bytesDownloadedOrigin 2⟩ := by
    decide +kernel
  exact load_counts_once_iff hrun rfl

/-- The peer's request fails and the origin supplies the segment: no fallback is counted. -/
theorem failed_probe_counts_no_fallback :
    ¬ ∀ load result, system.Reachable (fun _ _ => True) load →
      load.outcome = some (some result) → load.CountsOnce result := by
  intro h
  have hrun : system.run lonePeerLoad [.peerFails 0, .originAnswers [5, 6],
      .originChecked .matching] =
        some ⟨true, false, [.failed], false, false, false, .verifying [5, 6],
          some (some (.origin [5, 6] false)),
          countTraffic (countTraffic (countTraffic 0 .p2pRequests 1) .originRequests 1)
            .bytesDownloadedOrigin 2⟩ := by
    decide +kernel
  have hcounted := h _ _ (TransitionSystem.reachable_of_run ⟨_, _, _, rfl⟩ hrun) rfl
  exact absurd (hcounted.fallbacks _ _ rfl Nat.zero_lt_one) Nat.zero_ne_one

end CountedLoad

end Sdk

end OpenStreamGrid
