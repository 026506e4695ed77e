import Mathlib.Algebra.Order.BigOperators.Group.List
import OpenStreamGrid.Common.TrafficTally
import OpenStreamGrid.Lib.TransitionSystem
import OpenStreamGrid.Peer.BatchFetching
import OpenStreamGrid.Peer.PeerAttempts

/-!
# The statistics of the Node fetcher

`fetchSegment` and the assigned fetches of a batch: what each tells the statistics, the
scheduler and the tracker. The counters only add up, so each fetch keeps its own and the
fetcher's are their sum. A fetch joined by a further caller is one fetch; it is aborted
when its last caller is gone.
-/

namespace OpenStreamGrid

namespace HybridSegmentFetcher

/-! ## One fetch -/

inductive SegmentSource where
  | cache
  | p2p
  | origin
deriving DecidableEq

structure SegmentFetchResult where
  data : List UInt8
  source : SegmentSource
deriving DecidableEq

/-- What the scheduler is told of an attempt, its latency left out. -/
structure PeerObservation where
  peerId : PeerId
  succeeded : Bool
  bytes : ℕ
  failureReason : Option FailureReason
deriving DecidableEq

/-- A failure as it is reported to the tracker. -/
structure ReportedFailure where
  peerId : PeerId
  reason : FailureReason
deriving DecidableEq

inductive OriginStage where
  | idle
  | waitingForHedge
  | requesting
  | verifying (data : List UInt8)
  | delivered
  | failed
deriving DecidableEq

structure Fetch where
  /-- `listPeers` has not answered. -/
  discovering : Bool
  discoveryFailed : Bool
  /-- `signal.aborted || shutdownController.signal.aborted` -/
  aborted : Bool
  hedged : Bool
  attempt : Option PeerAttempt
  origin : OriginStage
  /-- `none` within is a rejected promise. -/
  outcome : Option (Option SegmentFetchResult)
  /-- What this fetch has added to the counters. -/
  stats : PeerTrafficStats
  observations : List PeerObservation
  reports : List ReportedFailure
deriving DecidableEq

inductive OriginEvent where
  | answers (data : List UInt8)
  | fails
  | hashMatches
  | hashDiffers
  | hashUnavailable
deriving DecidableEq

inductive FetchEvent where
  /-- The peers are listed and planned. -/
  | peersListed (peers : List Peer) (plan : SegmentSchedulingPlan)
  | discoveryFails
  | attempt (event : AttemptEvent)
  | hedgeDelayEnds
  /-- An aborted hedge that has not started. -/
  | hedgeAborted
  | origin (event : OriginEvent)
deriving DecidableEq

namespace Fetch

def count (fetch : Fetch) (key : PeerTrafficStatKey) (n : ℕ) : Fetch :=
  { fetch with stats := countTraffic fetch.stats key n }

def observePeer (fetch : Fetch) (observation : PeerObservation) : Fetch :=
  { fetch with observations := fetch.observations ++ [observation] }

def reportFailure (fetch : Fetch) (report : ReportedFailure) : Fetch :=
  { fetch with reports := fetch.reports ++ [report] }

def resolve (fetch : Fetch) (result : SegmentFetchResult) : Fetch :=
  { fetch with outcome := some (some result) }

def reject (fetch : Fetch) : Fetch := { fetch with outcome := some none }

/-- `recordP2PSuccess` -/
def recordP2PSuccess (fetch : Fetch) (bytes : ℕ) : Fetch :=
  (fetch.count .p2pSuccesses 1).count .bytesDownloadedP2P bytes

/-- `fetchFromPeer` begins. -/
def startAttempt (options : Node.FetcherOptions) (fetch : Fetch) (peerId : PeerId)
    (attemptBudgetMs : Option ℚ) : Fetch :=
  { fetch.count .p2pRequests 1 with
    attempt := some (.start options peerId attemptBudgetMs fetch.aborted) }

/-- `fetchFromOrigin` begins. -/
def startOrigin (fetch : Fetch) : Fetch :=
  { fetch.count .originRequests 1 with origin := .requesting }

def recordPeerFailure (fetch : Fetch) (peerId : PeerId) (error : Option FailureReason) : Fetch :=
  let reason := error.getD .connection
  (((fetch.observePeer ⟨peerId, false, 0, some reason⟩).count .p2pFailures 1).count
    .fallbacks 1).reportFailure ⟨peerId, reason⟩

/-- The attempt has ended with verified bytes. -/
def peerDelivers (fetch : Fetch) (peerId : PeerId) (data : List UInt8) : Fetch :=
  if fetch.hedged ∧ fetch.aborted then fetch.reject
  else
    ((fetch.recordP2PSuccess data.length).observePeer
      ⟨peerId, true, data.length, none⟩).resolve ⟨data, .p2p⟩

/-- The attempt has ended with an error. A waiting hedge starts now. -/
def peerFails (fetch : Fetch) (peerId : PeerId) (error : Option FailureReason) : Fetch :=
  if fetch.aborted then fetch.reject
  else
    let fetch := fetch.recordPeerFailure peerId error
    if fetch.hedged then
      match fetch.origin with
      | .waitingForHedge => fetch.startOrigin
      | .failed => fetch.reject
      | _ => fetch
    else fetch.startOrigin

/-- How the fetch goes on when its attempt has. Nobody waits for it in a fetch that is over. -/
def attemptGoes (fetch : Fetch) (attempt : PeerAttempt) : Fetch :=
  let fetch := { fetch with attempt := some attempt }
  if fetch.outcome.isSome then fetch
  else
    match attempt.stage with
    | .delivered data => fetch.peerDelivers attempt.peerId data
    | .failed error => fetch.peerFails attempt.peerId error
    | _ => fetch

/-- The fetcher's own check has found other bytes than the published ones. -/
def countIntegrity (fetch : Fetch) (attempt : PeerAttempt) (event : AttemptEvent) : Fetch :=
  match attempt.stage, event with
  | .verifying _, .hashDiffers => fetch.count .integrityFailures 1
  | _, _ => fetch

/-- The origin's verified bytes. They cancel a hedged attempt. -/
def originDelivers (fetch : Fetch) (data : List UInt8) : Fetch :=
  let fetch := { fetch with origin := .delivered }
  if fetch.outcome.isSome then fetch
  else if fetch.hedged ∧ fetch.aborted then fetch.reject
  else
    { (fetch.count .bytesDownloadedOrigin data.length).resolve ⟨data, .origin⟩ with
      attempt := fetch.attempt.map PeerAttempt.cancel }

def originFails (fetch : Fetch) : Fetch :=
  let fetch := { fetch with origin := .failed }
  if fetch.outcome.isSome then fetch
  else if fetch.hedged ∧ ¬fetch.aborted ∧ fetch.attempt.any PeerAttempt.running then fetch
  else fetch.reject

def originStep (fetch : Fetch) (event : OriginEvent) : Option Fetch :=
  match fetch.origin, event with
  | .requesting, .answers data =>
      if fetch.aborted ∨ fetch.outcome.isSome then none
      else some { fetch with origin := .verifying data }
  | .requesting, .fails => some fetch.originFails
  | .verifying data, .hashMatches => some (fetch.originDelivers data)
  | .verifying _, .hashDiffers => some (fetch.count .integrityFailures 1).originFails
  | .verifying _, .hashUnavailable => some fetch.originFails
  | _, _ => none

def step (options : Node.FetcherOptions) (fetch : Fetch) : FetchEvent → Option Fetch
  | .peersListed peers plan =>
      if fetch.discovering then
        let fetch := { fetch with discovering := false }
        match peers.head? with
        | none => some fetch.startOrigin
        | some peer =>
            match plan.execution with
            | some ⟨.hedgedOrigin, peerAttemptBudgetMs, _, _⟩ =>
                some { fetch.startAttempt options peer.id peerAttemptBudgetMs with
                  hedged := true, origin := .waitingForHedge }
            | _ => some (fetch.startAttempt options peer.id none)
      else none
  | .discoveryFails =>
      if fetch.discovering then
        some { (fetch.count .fallbacks 1).startOrigin with
          discovering := false, discoveryFailed := true }
      else none
  | .attempt event => do
      let attempt ← fetch.attempt
      let attempt' ← attempt.step options event
      return (fetch.countIntegrity attempt event).attemptGoes attempt'
  | .hedgeDelayEnds =>
      if fetch.origin = .waitingForHedge ∧ fetch.outcome = none ∧ ¬fetch.aborted then
        some fetch.startOrigin
      else none
  | .hedgeAborted =>
      if fetch.origin = .waitingForHedge ∧ fetch.outcome = none ∧ fetch.aborted then
        some { fetch.reject with origin := .failed }
      else none
  | .origin event => fetch.originStep event

/-- The fetch loses its last caller, or the fetcher is stopped. -/
def abort (fetch : Fetch) : Fetch :=
  { fetch with aborted := true, attempt := fetch.attempt.map PeerAttempt.cancel }

/-- The segment is in the cache. -/
def fromCache (data : List UInt8) : Fetch :=
  ⟨false, false, false, false, none, .idle, some (some ⟨data, .cache⟩), 0, [], []⟩

/-- `fetchUncachedSegment` begins. -/
def fetchUncachedSegment (aborted : Bool) : Fetch :=
  ⟨true, false, aborted, false, none, .idle, none, 0, [], []⟩

def fetchAssignedSegment (options : Node.FetcherOptions) (aborted : Bool) (peer : Option PeerId) :
    Fetch :=
  let fetch : Fetch := ⟨false, false, aborted, false, none, .idle, none, 0, [], []⟩
  match peer with
  | none => fetch.startOrigin
  | some peerId => fetch.startAttempt options peerId none

end Fetch

/-! ## The fetcher -/

/-- All fetches so far, in the order they began. -/
structure Fetcher where
  stopped : Bool
  fetches : List Fetch
deriving DecidableEq

inductive FetcherEvent where
  /-- `fetchSegment`, with what the cache has of it. -/
  | fetchSegment (cached : Option (List UInt8))
  /-- A member of a batch. -/
  | fetchAssigned (cached : Option (List UInt8)) (peer : Option PeerId)
  | abort (i : ℕ)
  | stop
  | fetch (i : ℕ) (event : FetchEvent)
deriving DecidableEq

namespace Fetcher

def start (fetcher : Fetcher) (cached : Option (List UInt8)) (fetch : Fetch) : Fetcher :=
  { fetcher with fetches := fetcher.fetches ++ [(cached.map Fetch.fromCache).getD fetch] }

def step (options : Node.FetcherOptions) (fetcher : Fetcher) : FetcherEvent → Option Fetcher
  | .fetchSegment cached => some (fetcher.start cached (.fetchUncachedSegment fetcher.stopped))
  | .fetchAssigned cached peer =>
      some (fetcher.start cached (.fetchAssignedSegment options fetcher.stopped peer))
  | .abort i => do
      let fetch ← fetcher.fetches[i]?
      if fetch.outcome = none then
        some { fetcher with fetches := fetcher.fetches.set i fetch.abort }
      else none
  | .stop =>
      if fetcher.stopped then none else some ⟨true, fetcher.fetches.map Fetch.abort⟩
  | .fetch i event => do
      let fetch ← fetcher.fetches[i]?
      let fetch' ← fetch.step options event
      return { fetcher with fetches := fetcher.fetches.set i fetch' }

/-- `options.stats` -/
def stats (fetcher : Fetcher) : PeerTrafficStats :=
  fun key => (fetcher.fetches.map fun fetch => fetch.stats key).sum

def system (options : Node.FetcherOptions) : TransitionSystem Fetcher FetcherEvent where
  init fetcher := fetcher = ⟨false, []⟩
  step := step options

end Fetcher

/-! ## Counting once -/

namespace PeerAttempt

/-- The error of an attempt that has failed and was not cancelled. -/
def failure? (attempt : PeerAttempt) : Option (Option FailureReason) :=
  match attempt.stage with
  | .failed error => if attempt.cancelled then none else some error
  | _ => none

theorem failure?_of_running {attempt : PeerAttempt} (h : attempt.running = true) :
    attempt.failure? = none := by
  unfold running at h
  unfold failure?
  cases hstage : attempt.stage with
  | failed =>
      rw [hstage] at h
      cases h
  | connecting | receiving | webRtc | verifyingWebRtc | http | verifyingHttp | verifying
  | delivered => rfl

theorem failure?_of_delivered {attempt : PeerAttempt} {data : List UInt8}
    (h : attempt.stage = .delivered data) : attempt.failure? = none := by
  unfold failure?
  rw [h]

theorem not_running_of_delivered {attempt : PeerAttempt} {data : List UInt8}
    (h : attempt.stage = .delivered data) : attempt.running ≠ true := by
  unfold running
  rw [h]
  exact Bool.false_ne_true

theorem not_running_of_failed {attempt : PeerAttempt} {error : Option FailureReason}
    (h : attempt.stage = .failed error) : attempt.running ≠ true := by
  unfold running
  rw [h]
  exact Bool.false_ne_true

/-! ### Cancelling -/

theorem cancel_of_not_running {attempt : PeerAttempt} (h : attempt.running ≠ true) :
    attempt.cancel = attempt := if_neg h

theorem running_cancel (attempt : PeerAttempt) : attempt.cancel.running = attempt.running := by
  unfold cancel
  split_ifs
  · rfl
  · rfl

theorem peerId_cancel (attempt : PeerAttempt) : attempt.cancel.peerId = attempt.peerId := by
  unfold cancel
  split_ifs
  · rfl
  · rfl

theorem failure?_cancel (attempt : PeerAttempt) : attempt.cancel.failure? = attempt.failure? := by
  by_cases hrunning : attempt.running = true
  · have hcancelled : attempt.cancel.running = true := attempt.running_cancel.trans hrunning
    rw [failure?_of_running hrunning, failure?_of_running hcancelled]
  · rw [cancel_of_not_running hrunning]

theorem cancelled_of_running_cancel {attempt : PeerAttempt} (h : attempt.cancel.running = true) :
    attempt.cancel.cancelled = true := by
  unfold cancel
  rw [if_pos (attempt.running_cancel.symm.trans h)]

theorem failure?_of_failed {attempt : PeerAttempt} {error : Option FailureReason}
    (h : attempt.stage = .failed error) :
    attempt.failure? = if attempt.cancelled then none else some error := by
  unfold failure?
  rw [h]

end PeerAttempt

def ReportedFailure.observation (failure : ReportedFailure) : PeerObservation :=
  ⟨failure.peerId, false, 0, some failure.reason⟩

namespace Fetch

variable {options : Node.FetcherOptions} {fetch fetch' : Fetch}

/-- The failure of the attempt, as it is to be reported. -/
def failure? (fetch : Fetch) : Option ReportedFailure :=
  fetch.attempt.bind fun attempt =>
    attempt.failure?.map fun error => ⟨attempt.peerId, error.getD .connection⟩

/-- The bytes returned from a peer, -/
def p2pResult (fetch : Fetch) : Option (List UInt8) :=
  match fetch.outcome with
  | some (some ⟨data, .p2p⟩) => some data
  | _ => none

/-- or from the origin. -/
def originResult (fetch : Fetch) : Option (List UInt8) :=
  match fetch.outcome with
  | some (some ⟨data, .origin⟩) => some data
  | _ => none

def byteCount (data : Option (List UInt8)) : ℕ := (data.map List.length).getD 0

/-- The success of the attempt, as the scheduler is told of it. -/
def success? (fetch : Fetch) : Option PeerObservation :=
  fetch.p2pResult.bind fun data =>
    fetch.attempt.map fun attempt => ⟨attempt.peerId, true, data.length, none⟩

/-- What is expected of the counters and calls of a fetch, at any time. -/
structure CountedOnce (fetch : Fetch) : Prop where
  p2pBytes : fetch.stats .bytesDownloadedP2P = byteCount fetch.p2pResult
  originBytes : fetch.stats .bytesDownloadedOrigin = byteCount fetch.originResult
  failures : fetch.stats .p2pFailures = fetch.failure?.toList.length
  fallbacks : fetch.stats .fallbacks = fetch.failure?.toList.length + fetch.discoveryFailed.toNat
  requests : fetch.stats .p2pSuccesses + fetch.stats .p2pFailures ≤ fetch.stats .p2pRequests
  told : fetch.observations.length ≤ fetch.attempt.toList.length

/-- The peers are not known yet. -/
def Undecided (fetch : Fetch) : Prop :=
  fetch.attempt = none ∧ fetch.discoveryFailed = false ∧ fetch.outcome = none ∧
    fetch.origin = .idle

/-- The counters and calls as the state of the fetch says they are. -/
structure Accounted (fetch : Fetch) : Prop where
  tally : Tally fetch.stats fetch.attempt.toList.length fetch.p2pResult.toList.length
    fetch.failure?.toList.length (fetch.failure?.toList.length + fetch.discoveryFailed.toNat)
    (byteCount fetch.p2pResult) (byteCount fetch.originResult)
  observations : fetch.observations =
    fetch.failure?.toList.map ReportedFailure.observation ++ fetch.success?.toList
  reports : fetch.reports = fetch.failure?.toList
  discovering : fetch.discovering = true → fetch.Undecided
  /-- A peer alone is tried before the origin is asked. -/
  alone : fetch.hedged = false → fetch.origin ≠ .idle →
    ∀ attempt, fetch.attempt = some attempt → attempt.running ≠ true
  /-- An attempt under way is cancelled where its fetch is aborted or over. -/
  linked : ∀ attempt, fetch.attempt = some attempt → attempt.running = true →
    (attempt.cancelled = true ↔ fetch.aborted = true ∨ fetch.outcome.isSome)
  delivered : ∀ data, fetch.p2pResult = some data →
    ∃ attempt, fetch.attempt = some attempt ∧ attempt.stage = .delivered data

/-- Nothing has come of the fetch yet. -/
structure Fresh (fetch : Fetch) : Prop where
  tally : Tally fetch.stats fetch.attempt.toList.length 0 0 fetch.discoveryFailed.toNat 0 0
  observations : fetch.observations = []
  reports : fetch.reports = []
  discovering : fetch.discovering = true → fetch.Undecided

/-! ### State functions -/

theorem outcome_startOrigin (fetch : Fetch) : fetch.startOrigin.outcome = fetch.outcome := rfl

theorem outcome_recordPeerFailure (fetch : Fetch) (peerId : PeerId)
    (error : Option FailureReason) :
    (fetch.recordPeerFailure peerId error).outcome = fetch.outcome := rfl

theorem failure?_eq_none (h : ∀ attempt, fetch.attempt = some attempt → attempt.failure? = none) :
    fetch.failure? = none := by
  unfold failure?
  cases hattempt : fetch.attempt with
  | none => rfl
  | some attempt => simp [h attempt hattempt]

theorem failure?_of_attempt {attempt : PeerAttempt} (h : fetch.attempt = some attempt) :
    fetch.failure? =
      attempt.failure?.map fun error => ⟨attempt.peerId, error.getD .connection⟩ := by
  unfold failure?
  rw [h]
  rfl

theorem p2pResult_of_unsettled (h : fetch.outcome = none) : fetch.p2pResult = none := by
  unfold p2pResult
  rw [h]

theorem originResult_of_unsettled (h : fetch.outcome = none) : fetch.originResult = none := by
  unfold originResult
  rw [h]

theorem success?_of_no_result (h : fetch.p2pResult = none) : fetch.success? = none := by
  unfold success?
  rw [h]
  rfl

namespace Accounted

theorem fresh (h : fetch.Accounted) (houtcome : fetch.outcome = none)
    (hfailure : fetch.failure? = none) : Fresh fetch := by
  have htally := h.tally
  have hobservations := h.observations
  have hreports := h.reports
  have hp2p := p2pResult_of_unsettled houtcome
  rw [hfailure, hp2p, originResult_of_unsettled houtcome] at htally
  rw [hfailure, success?_of_no_result hp2p] at hobservations
  rw [hfailure] at hreports
  refine ⟨?_, hobservations, hreports, h.discovering⟩
  have hzero : ([] : List ReportedFailure).length + fetch.discoveryFailed.toNat =
      fetch.discoveryFailed.toNat := Nat.zero_add _
  exact hzero ▸ htally

/-- An attempt fails or succeeds, and not both. -/
theorem ends_le_attempts (h : fetch.Accounted) :
    fetch.p2pResult.toList.length + fetch.failure?.toList.length ≤ fetch.attempt.toList.length := by
  cases hattempt : fetch.attempt with
  | none =>
      have hfailure : fetch.failure? = none := by
        unfold failure?
        rw [hattempt]
        rfl
      cases hresult : fetch.p2pResult with
      | none =>
          rw [hfailure]
          exact Nat.le_refl 0
      | some data =>
          obtain ⟨attempt, hsome, -⟩ := h.delivered data hresult
          cases hattempt.symm.trans hsome
  | some attempt =>
      cases hresult : fetch.p2pResult with
      | none =>
          show 0 + fetch.failure?.toList.length ≤ 1
          rw [Nat.zero_add]
          exact Option.length_toList_le
      | some data =>
          obtain ⟨attempt', hsome, hstage⟩ := h.delivered data hresult
          rw [failure?_of_attempt hsome, PeerAttempt.failure?_of_delivered hstage]
          exact Nat.le_refl 1

theorem countedOnce (h : fetch.Accounted) : fetch.CountedOnce := by
  have hends := h.ends_le_attempts
  refine ⟨h.tally.p2p, h.tally.origin, h.tally.failures, h.tally.fallbacks, ?_, ?_⟩
  · rw [h.tally.successes, h.tally.failures, h.tally.requests]
    exact hends
  · have hsuccess : fetch.success?.toList.length ≤ fetch.p2pResult.toList.length := by
      unfold success?
      cases fetch.p2pResult with
      | none => exact Nat.le_refl 0
      | some data => exact Option.length_toList_le
    rw [h.observations, List.length_append, List.length_map]
    omega

end Accounted

/-! ### Reactions -/

namespace Fresh

/-- A fetch with nothing to report, waiting or rejected. -/
theorem accounted (h : fetch.Fresh) (hfailure : fetch.failure? = none)
    (hp2p : fetch.p2pResult = none) (horigin : fetch.originResult = none)
    (halone : fetch.hedged = false → fetch.origin ≠ .idle →
      ∀ attempt, fetch.attempt = some attempt → attempt.running ≠ true)
    (hlinked : ∀ attempt, fetch.attempt = some attempt → attempt.running = true →
      (attempt.cancelled = true ↔ fetch.aborted = true ∨ fetch.outcome.isSome)) :
    Accounted fetch := by
  refine ⟨?_, ?_, ?_, h.discovering, halone, hlinked, ?_⟩
  · rw [hfailure, hp2p, horigin]
    have hzero : ([] : List ReportedFailure).length + fetch.discoveryFailed.toNat =
        fetch.discoveryFailed.toNat := Nat.zero_add _
    exact hzero.symm ▸ h.tally
  · rw [hfailure, success?_of_no_result hp2p]
    exact h.observations
  · rw [hfailure]
    exact h.reports
  · intro data hdata
    cases hp2p.symm.trans hdata

theorem reject (h : fetch.Fresh) (hdiscovering : fetch.discovering = false) :
    Fresh fetch.reject :=
  ⟨h.tally, h.observations, h.reports, fun hfalse => by cases hdiscovering.symm.trans hfalse⟩

theorem peerDelivers {attempt : PeerAttempt} {data : List UInt8} (h : fetch.Fresh)
    (hattempt : fetch.attempt = some attempt) (hstage : attempt.stage = .delivered data)
    (hdiscovering : fetch.discovering = false) :
    Accounted (fetch.peerDelivers attempt.peerId data) := by
  have hfailure : fetch.failure? = none := by
    rw [failure?_of_attempt hattempt, PeerAttempt.failure?_of_delivered hstage]
    rfl
  have hrunning : ∀ attempt', fetch.attempt = some attempt' → attempt'.running ≠ true := by
    intro attempt' hsome hrunning
    obtain rfl := Option.some.inj (hattempt.symm.trans hsome)
    unfold PeerAttempt.running at hrunning
    rw [hstage] at hrunning
    cases hrunning
  have hover : fetch.discovering ≠ true := by
    rw [hdiscovering]
    exact Bool.false_ne_true
  unfold Fetch.peerDelivers
  split_ifs with haborted
  · exact (h.reject hdiscovering).accounted hfailure rfl rfl (fun _ _ => hrunning)
      fun attempt' hsome hrun => absurd hrun (hrunning attempt' hsome)
  · refine ⟨?_, ?_, ?_, fun hfalse => absurd hfalse hover, fun _ _ => hrunning,
      fun attempt' hsome hrun => absurd hrun (hrunning attempt' hsome), ?_⟩
    · have htally := (h.tally.success).p2pBytes data.length
      simp only [Nat.zero_add] at htally
      show Tally _ _ 1 fetch.failure?.toList.length
        (fetch.failure?.toList.length + fetch.discoveryFailed.toNat) data.length 0
      rw [hfailure]
      have hzero : ([] : List ReportedFailure).length + fetch.discoveryFailed.toNat =
          fetch.discoveryFailed.toNat := Nat.zero_add _
      exact hzero.symm ▸ htally
    · show fetch.observations ++ [_] = fetch.failure?.toList.map _ ++
        (fetch.attempt.map _).toList
      rw [hfailure, h.observations, hattempt]
      rfl
    · show fetch.reports = fetch.failure?.toList
      rw [hfailure]
      exact h.reports
    · intro data' hdata
      obtain rfl := Option.some.inj hdata
      exact ⟨attempt, hattempt, hstage⟩

end Fresh

/-- A failure is counted and told once, and the fetch goes on or is rejected. -/
structure FailedOnce (fetch : Fetch) : Prop where
  failure : ∃ report, fetch.failure? = some report ∧ fetch.reports = [report] ∧
    fetch.observations = [report.observation]
  tally : Tally fetch.stats fetch.attempt.toList.length 0 1 (1 + fetch.discoveryFailed.toNat) 0 0
  discovering : fetch.discovering = false
  ended : ∀ attempt, fetch.attempt = some attempt → attempt.running ≠ true

namespace FailedOnce

theorem accounted (h : fetch.FailedOnce) (hp2p : fetch.p2pResult = none)
    (horigin : fetch.originResult = none) : Accounted fetch := by
  obtain ⟨report, hfailure, hreports, hobservations⟩ := h.failure
  refine ⟨?_, ?_, ?_, ?_, fun _ _ => h.ended,
    fun attempt hsome hrun => absurd hrun (h.ended attempt hsome), ?_⟩
  · rw [hfailure, hp2p, horigin]
    exact h.tally
  · rw [hfailure, success?_of_no_result hp2p, hobservations]
    rfl
  · rw [hfailure, hreports]
    rfl
  · intro hfalse
    rw [h.discovering] at hfalse
    cases hfalse
  · intro data hdata
    cases hp2p.symm.trans hdata

theorem startOrigin (h : fetch.FailedOnce) : FailedOnce fetch.startOrigin :=
  ⟨h.failure, h.tally.originRequest, h.discovering, h.ended⟩

theorem reject (h : fetch.FailedOnce) : FailedOnce fetch.reject :=
  ⟨h.failure, h.tally, h.discovering, h.ended⟩

end FailedOnce

theorem Fresh.recordPeerFailure {attempt : PeerAttempt} {error : Option FailureReason}
    (h : fetch.Fresh) (hattempt : fetch.attempt = some attempt)
    (hstage : attempt.stage = .failed error) (hcancelled : attempt.cancelled = false)
    (hdiscovering : fetch.discovering = false) :
    FailedOnce (fetch.recordPeerFailure attempt.peerId error) := by
  have hfailure : fetch.failure? = some ⟨attempt.peerId, error.getD .connection⟩ := by
    rw [failure?_of_attempt hattempt, PeerAttempt.failure?_of_failed hstage, hcancelled]
    rfl
  refine ⟨⟨_, hfailure, ?_, ?_⟩, ?_, hdiscovering, ?_⟩
  · show fetch.reports ++ [_] = _
    rw [h.reports]
    rfl
  · show fetch.observations ++ [_] = _
    rw [h.observations]
    rfl
  · have htally := h.tally.failure.fallback
    rw [Nat.zero_add] at htally
    rw [Nat.add_comm 1]
    exact htally
  · intro attempt' hsome
    obtain rfl := Option.some.inj (hattempt.symm.trans hsome)
    exact PeerAttempt.not_running_of_failed hstage

theorem Fresh.peerFails {attempt : PeerAttempt} {error : Option FailureReason} (h : fetch.Fresh)
    (hattempt : fetch.attempt = some attempt) (hstage : attempt.stage = .failed error)
    (hcancelled : attempt.cancelled = fetch.aborted) (hdiscovering : fetch.discovering = false)
    (houtcome : fetch.outcome = none) : Accounted (fetch.peerFails attempt.peerId error) := by
  unfold Fetch.peerFails
  split_ifs with haborted
  · have hfailure : fetch.failure? = none := by
      rw [failure?_of_attempt hattempt, PeerAttempt.failure?_of_failed hstage, hcancelled, haborted]
      rfl
    have hended : ∀ attempt', fetch.attempt = some attempt' → attempt'.running ≠ true := by
      intro attempt' hsome
      obtain rfl := Option.some.inj (hattempt.symm.trans hsome)
      exact PeerAttempt.not_running_of_failed hstage
    exact (h.reject hdiscovering).accounted hfailure rfl rfl (fun _ _ => hended)
      fun attempt' hsome hrun => absurd hrun (hended attempt' hsome)
  · rw [Bool.eq_false_iff.mpr haborted] at hcancelled
    have hfailed := h.recordPeerFailure hattempt hstage hcancelled hdiscovering
    have hopen : (fetch.recordPeerFailure attempt.peerId error).outcome = none := by
      rw [outcome_recordPeerFailure, houtcome]
    have hopen' : (fetch.recordPeerFailure attempt.peerId error).startOrigin.outcome = none := by
      rw [outcome_startOrigin, hopen]
    have hwaits := hfailed.accounted (p2pResult_of_unsettled hopen)
      (originResult_of_unsettled hopen)
    have hstarts := hfailed.startOrigin.accounted (p2pResult_of_unsettled hopen')
      (originResult_of_unsettled hopen')
    dsimp only
    split_ifs with hhedged
    · split
      · exact hstarts
      · exact hfailed.reject.accounted rfl rfl
      · exact hwaits
    · exact hstarts

/-! ### Steps -/

namespace Accounted

/-- An attempt under way is replaced by one with nothing to report. -/
theorem withAttempt {attempt attempt' : PeerAttempt} (h : fetch.Accounted)
    (hattempt : fetch.attempt = some attempt) (hrunning : attempt.running = true)
    (hfailure : attempt'.failure? = none) (hcancelled : attempt'.cancelled = attempt.cancelled) :
    Accounted { fetch with attempt := some attempt' } := by
  have hbefore : fetch.failure? = none := by
    rw [failure?_of_attempt hattempt, PeerAttempt.failure?_of_running hrunning]
    rfl
  have hafter : failure? { fetch with attempt := some attempt' } = none := by
    rw [failure?_of_attempt rfl, hfailure]
    rfl
  have hp2p : fetch.p2pResult = none := by
    cases hresult : fetch.p2pResult with
    | none => rfl
    | some data =>
        rcases h.delivered data hresult with ⟨attempt'', hsome, hstage⟩
        obtain rfl := Option.some.inj (hattempt.symm.trans hsome)
        unfold PeerAttempt.running at hrunning
        rw [hstage] at hrunning
        cases hrunning
  have hsuccess : success? { fetch with attempt := some attempt' } = none :=
    success?_of_no_result hp2p
  have htally := h.tally
  have hobservations := h.observations
  have hreports := h.reports
  rw [hbefore, hattempt] at htally
  rw [hbefore, success?_of_no_result hp2p] at hobservations
  rw [hbefore] at hreports
  refine ⟨?_, ?_, ?_, ?_, ?_, ?_, ?_⟩
  · rw [hafter]
    exact htally
  · rw [hafter, hsuccess]
    exact hobservations
  · rw [hafter]
    exact hreports
  · intro hdiscovering
    cases hattempt.symm.trans (h.discovering hdiscovering).1
  · intro hhedged horigin
    exact absurd hrunning (h.alone hhedged horigin attempt hattempt)
  · intro attempt'' hsome _
    obtain rfl := Option.some.inj hsome
    rw [hcancelled]
    exact h.linked attempt hattempt hrunning
  · intro data hdata
    cases hp2p.symm.trans hdata

/-- The reaction to what has become of the attempt. -/
theorem attemptGoes {attempt attempt' : PeerAttempt} (h : fetch.Accounted)
    (hattempt : fetch.attempt = some attempt) (hgoes : attempt.GoesOn attempt') :
    Accounted (fetch.attemptGoes attempt') := by
  have hlinked := h.linked attempt hattempt hgoes.running
  have hdiscovering : fetch.discovering = false := by
    cases hdiscovering : fetch.discovering with
    | false => rfl
    | true => cases hattempt.symm.trans (h.discovering hdiscovering).1
  have hbefore : fetch.failure? = none := by
    rw [failure?_of_attempt hattempt, PeerAttempt.failure?_of_running hgoes.running]
    rfl
  unfold Fetch.attemptGoes
  dsimp only
  split_ifs with hover
  · apply h.withAttempt hattempt hgoes.running ?_ hgoes.cancelled
    cases hstage : attempt'.stage with
    | failed error =>
        rw [PeerAttempt.failure?_of_failed hstage, hgoes.cancelled, hlinked.mpr (Or.inr hover)]
        rfl
    | delivered data => exact PeerAttempt.failure?_of_delivered hstage
    | connecting | receiving | webRtc | verifyingWebRtc | http | verifyingHttp | verifying =>
        unfold PeerAttempt.failure?
        rw [hstage]
  · have houtcome : fetch.outcome = none := Option.not_isSome_iff_eq_none.mp hover
    have hfresh : Fresh { fetch with attempt := some attempt' } := by
      have hfresh := h.fresh houtcome hbefore
      have htally := hfresh.tally
      rw [hattempt] at htally
      refine ⟨htally, hfresh.observations, hfresh.reports, fun hfalse => ?_⟩
      cases hdiscovering.symm.trans hfalse
    split
    · rename_i data hstage
      exact hfresh.peerDelivers rfl hstage hdiscovering
    · rename_i error hstage
      refine hfresh.peerFails rfl hstage ?_ hdiscovering houtcome
      rw [hgoes.cancelled, Bool.eq_iff_iff]
      show attempt.cancelled = true ↔ fetch.aborted = true
      rw [hlinked, houtcome]
      exact or_iff_left Bool.false_ne_true
    · rename_i hnot_delivered hnot_failed
      apply h.withAttempt hattempt hgoes.running ?_ hgoes.cancelled
      unfold PeerAttempt.failure?
      split
      · rename_i error hstage
        exact absurd hstage (hnot_failed error)
      · rfl

theorem count_free (h : fetch.Accounted) : Accounted (fetch.count .integrityFailures 1) :=
  ⟨h.tally.integrityFailure, h.observations, h.reports, h.discovering, h.alone, h.linked,
    h.delivered⟩

end Accounted

theorem failure?_map_cancel :
    failure? { fetch with attempt := fetch.attempt.map PeerAttempt.cancel } = fetch.failure? := by
  unfold failure?
  cases hattempt : fetch.attempt with
  | none => rfl
  | some attempt =>
      show attempt.cancel.failure?.map (fun error => ReportedFailure.mk attempt.cancel.peerId _) = _
      rw [PeerAttempt.failure?_cancel, PeerAttempt.peerId_cancel]
      rfl

theorem cancelled_of_map_cancel {attempt : PeerAttempt}
    (hattempt : fetch.attempt.map PeerAttempt.cancel = some attempt)
    (hrunning : attempt.running = true) : attempt.cancelled = true := by
  rcases Option.map_eq_some_iff.mp hattempt with ⟨attempt', -, rfl⟩
  exact PeerAttempt.cancelled_of_running_cancel hrunning

theorem not_running_of_map_cancel
    (h : ∀ attempt, fetch.attempt = some attempt → attempt.running ≠ true) :
    ∀ attempt, fetch.attempt.map PeerAttempt.cancel = some attempt → attempt.running ≠ true := by
  intro attempt hattempt
  rcases Option.map_eq_some_iff.mp hattempt with ⟨attempt', hsome, rfl⟩
  rw [PeerAttempt.cancel_of_not_running (h attempt' hsome)]
  exact h attempt' hsome

namespace Accounted

theorem abort (h : fetch.Accounted) : Accounted fetch.abort := by
  have hfailure : failure? fetch.abort = fetch.failure? := failure?_map_cancel
  have hlength : fetch.abort.attempt.toList.length = fetch.attempt.toList.length := by
    show (fetch.attempt.map _).toList.length = _
    cases fetch.attempt with
    | none => rfl
    | some attempt => rfl
  have hsuccess : success? fetch.abort = fetch.success? := by
    show fetch.p2pResult.bind _ = fetch.p2pResult.bind _
    congr 1
    funext data
    show (fetch.attempt.map PeerAttempt.cancel).map _ = fetch.attempt.map _
    rw [Option.map_map]
    congr 1
    funext attempt
    exact congrArg (PeerObservation.mk · true data.length none) attempt.peerId_cancel
  refine ⟨?_, ?_, ?_, ?_, ?_, ?_, ?_⟩
  · rw [hfailure, hlength]
    exact h.tally
  · rw [hfailure, hsuccess]
    exact h.observations
  · rw [hfailure]
    exact h.reports
  · intro hdiscovering
    obtain ⟨hattempt, hrest⟩ := h.discovering hdiscovering
    refine ⟨?_, hrest⟩
    show fetch.attempt.map _ = none
    rw [hattempt]
    rfl
  · intro hhedged horigin
    exact not_running_of_map_cancel (h.alone hhedged horigin)
  · intro attempt hattempt hrunning
    exact iff_of_true (cancelled_of_map_cancel hattempt hrunning) (Or.inl rfl)
  · intro data hdata
    obtain ⟨attempt, hattempt, hstage⟩ := h.delivered data hdata
    refine ⟨attempt.cancel, congrArg (Option.map _) hattempt, ?_⟩
    rw [PeerAttempt.cancel_of_not_running (PeerAttempt.not_running_of_delivered hstage)]
    exact hstage

/-- A change of the origin's stage is nobody's business else. -/
theorem withOrigin (h : fetch.Accounted) {origin : OriginStage} (hbusy : fetch.origin ≠ .idle) :
    Accounted { fetch with origin := origin } := by
  refine ⟨h.tally, h.observations, h.reports, fun hdiscovering => ?_,
    fun hhedged _ => h.alone hhedged hbusy, h.linked, h.delivered⟩
  exact absurd (h.discovering hdiscovering).2.2.2 hbusy

theorem startOrigin (h : fetch.Accounted) (hbusy : fetch.origin ≠ .idle) :
    Accounted fetch.startOrigin := by
  have hcounted : Accounted (fetch.count .originRequests 1) :=
    ⟨h.tally.originRequest, h.observations, h.reports, h.discovering, h.alone, h.linked,
      h.delivered⟩
  exact hcounted.withOrigin hbusy

/-- A fetch is rejected where no attempt goes on without its abort. -/
theorem reject (h : fetch.Accounted) (houtcome : fetch.outcome = none)
    (hdiscovering : fetch.discovering = false)
    (hended : fetch.aborted = true ∨
      ∀ attempt, fetch.attempt = some attempt → attempt.running ≠ true) :
    Accounted fetch.reject := by
  have hp2p := p2pResult_of_unsettled houtcome
  have horigin := originResult_of_unsettled houtcome
  have htally := h.tally
  have hobservations := h.observations
  rw [hp2p, horigin] at htally
  rw [success?_of_no_result hp2p] at hobservations
  refine ⟨htally, hobservations, h.reports, ?_, h.alone, ?_, fun data hdata => by cases hdata⟩
  · intro hfalse
    cases hdiscovering.symm.trans hfalse
  · intro attempt hattempt hrunning
    refine iff_of_true ?_ (Or.inr rfl)
    rcases hended with haborted | hended
    · exact (h.linked attempt hattempt hrunning).mpr (Or.inl haborted)
    · exact absurd hrunning (hended attempt hattempt)

theorem not_discovering (h : fetch.Accounted) (hbusy : fetch.origin ≠ .idle) :
    fetch.discovering = false := by
  cases hdiscovering : fetch.discovering with
  | false => rfl
  | true => exact absurd (h.discovering hdiscovering).2.2.2 hbusy

theorem originFails (h : fetch.Accounted) (hbusy : fetch.origin ≠ .idle) :
    Accounted fetch.originFails := by
  have hfailed : Accounted { fetch with origin := .failed } := h.withOrigin hbusy
  unfold Fetch.originFails
  dsimp only
  split_ifs with hover hpending
  · exact hfailed
  · exact hfailed
  · apply hfailed.reject (Option.not_isSome_iff_eq_none.mp hover) (h.not_discovering hbusy)
    -- an attempt that goes on is one of an aborted hedge
    by_cases haborted : fetch.aborted = true
    · exact Or.inl haborted
    · right
      intro attempt hattempt hrunning
      by_cases hhedged : fetch.hedged = true
      · refine hpending ⟨hhedged, haborted, ?_⟩
        show fetch.attempt.any PeerAttempt.running = true
        rw [show fetch.attempt = some attempt from hattempt]
        exact hrunning
      · exact h.alone (Bool.eq_false_iff.mpr hhedged) hbusy attempt hattempt hrunning

theorem originDelivers (h : fetch.Accounted) (hbusy : fetch.origin ≠ .idle) (data : List UInt8) :
    Accounted (fetch.originDelivers data) := by
  have hended : Accounted { fetch with origin := .delivered } := h.withOrigin hbusy
  have hdiscovering := h.not_discovering hbusy
  unfold Fetch.originDelivers
  dsimp only
  split_ifs with hover haborted
  · exact hended
  · exact hended.reject (Option.not_isSome_iff_eq_none.mp hover) hdiscovering (Or.inl haborted.2)
  · have houtcome : fetch.outcome = none := Option.not_isSome_iff_eq_none.mp hover
    have hp2p := p2pResult_of_unsettled houtcome
    have horigin := originResult_of_unsettled houtcome
    have hcancelled := h.abort
    have htally := hcancelled.tally
    have hobservations := hcancelled.observations
    rw [show p2pResult fetch.abort = none from hp2p,
      show originResult fetch.abort = none from horigin] at htally
    rw [success?_of_no_result (show p2pResult fetch.abort = none from hp2p)] at hobservations
    have hbytes := htally.originBytes data.length
    rw [show byteCount none + data.length = data.length from Nat.zero_add _] at hbytes
    refine ⟨hbytes, hobservations, hcancelled.reports, ?_, ?_, ?_, fun data hdata => by cases hdata⟩
    · intro hfalse
      cases hdiscovering.symm.trans hfalse
    · intro hhedged _
      exact not_running_of_map_cancel (h.alone hhedged hbusy)
    · intro attempt hattempt hrunning
      exact iff_of_true (cancelled_of_map_cancel hattempt hrunning) (Or.inr rfl)

theorem originStep {event : OriginEvent} (h : fetch.Accounted)
    (hstep : fetch.originStep event = some fetch') : Accounted fetch' := by
  have hbusy : fetch.origin ≠ .idle := by
    intro hidle
    unfold Fetch.originStep at hstep
    rw [hidle] at hstep
    cases hstep
  unfold Fetch.originStep at hstep
  split at hstep
  · split_ifs at hstep
    obtain rfl := Option.some.inj hstep
    exact h.withOrigin hbusy
  · obtain rfl := Option.some.inj hstep
    exact h.originFails hbusy
  · obtain rfl := Option.some.inj hstep
    exact h.originDelivers hbusy _
  · obtain rfl := Option.some.inj hstep
    exact h.count_free.originFails hbusy
  · obtain rfl := Option.some.inj hstep
    exact h.originFails hbusy
  · cases hstep

theorem countIntegrity (h : fetch.Accounted) (attempt : PeerAttempt) (event : AttemptEvent) :
    Accounted (fetch.countIntegrity attempt event) := by
  unfold Fetch.countIntegrity
  split
  · exact h.count_free
  · exact h

end Accounted

theorem attempt_countIntegrity (attempt : PeerAttempt) (event : AttemptEvent) :
    (fetch.countIntegrity attempt event).attempt = fetch.attempt := by
  unfold countIntegrity
  split
  · rfl
  · rfl

/-- Before the peers are known nothing has come of the fetch. -/
theorem Accounted.undecided (h : fetch.Accounted) (hdiscovering : fetch.discovering = true) :
    Undecided fetch ∧ Fresh fetch := by
  have hundecided := h.discovering hdiscovering
  refine ⟨hundecided, h.fresh hundecided.2.2.1 (failure?_eq_none fun attempt hattempt => ?_)⟩
  cases hundecided.1.symm.trans hattempt

/-- A fetch without a peer to try asks the origin. -/
theorem Fresh.withoutPeer (h : fetch.Fresh) (hattempt : fetch.attempt = none)
    (houtcome : fetch.outcome = none) (hdiscovering : fetch.discovering = false) :
    Accounted fetch.startOrigin := by
  have hfresh : Fresh fetch.startOrigin := by
    refine ⟨h.tally.originRequest, h.observations, h.reports, fun hfalse => ?_⟩
    cases hdiscovering.symm.trans hfalse
  have hnone : fetch.startOrigin.attempt = none := hattempt
  apply hfresh.accounted
  · apply failure?_eq_none
    intro attempt hsome
    cases hnone.symm.trans hsome
  · exact p2pResult_of_unsettled houtcome
  · exact originResult_of_unsettled houtcome
  · intro _ _ attempt hsome
    cases hnone.symm.trans hsome
  · intro attempt hsome
    cases hnone.symm.trans hsome

theorem start_running (peerId : PeerId) (attemptBudgetMs : Option ℚ) (aborted : Bool) :
    (PeerAttempt.start options peerId attemptBudgetMs aborted).running = true := by
  unfold PeerAttempt.start PeerAttempt.running
  dsimp only
  cases options.transportManager with
  | none => rfl
  | some manager =>
      dsimp only
      split_ifs
      · rfl
      · rfl

/-- A fetch with a peer to try, alone or with a hedge. -/
theorem Fresh.withPeer (h : fetch.Fresh) (hattempt : fetch.attempt = none)
    (houtcome : fetch.outcome = none) (hdiscovering : fetch.discovering = false) (peerId : PeerId)
    (attemptBudgetMs : Option ℚ) {hedged : Bool} {origin : OriginStage}
    (halone : hedged = false → origin = .idle) :
    Accounted { fetch.startAttempt options peerId attemptBudgetMs with
      hedged := hedged, origin := origin } := by
  have htally := h.tally
  rw [hattempt] at htally
  have hfresh : Fresh { fetch.startAttempt options peerId attemptBudgetMs with
      hedged := hedged, origin := origin } := by
    refine ⟨htally.request, h.observations, h.reports, fun hfalse => ?_⟩
    cases hdiscovering.symm.trans hfalse
  apply hfresh.accounted
  · rw [failure?_of_attempt rfl, PeerAttempt.failure?_of_running (start_running _ _ _)]
    rfl
  · exact p2pResult_of_unsettled houtcome
  · exact originResult_of_unsettled houtcome
  · intro hhedged horigin
    exact absurd (halone hhedged) horigin
  · intro attempt hsome _
    obtain rfl := Option.some.inj hsome
    show fetch.aborted = true ↔ fetch.aborted = true ∨ fetch.outcome.isSome = true
    rw [houtcome]
    exact (or_iff_left Bool.false_ne_true).symm

theorem Accounted.step {event : FetchEvent} (h : fetch.Accounted)
    (hstep : fetch.step options event = some fetch') : Accounted fetch' := by
  cases event with
  | peersListed peers plan =>
      simp only [Fetch.step] at hstep
      split_ifs at hstep with hdiscovering
      obtain ⟨⟨hattempt, -, houtcome, horigin⟩, hfresh⟩ := h.undecided hdiscovering
      have hknown : Fresh { fetch with discovering := false } :=
        ⟨hfresh.tally, hfresh.observations, hfresh.reports, fun hfalse => by cases hfalse⟩
      split at hstep
      · obtain rfl := Option.some.inj hstep
        exact hknown.withoutPeer hattempt houtcome rfl
      · split at hstep
        · obtain rfl := Option.some.inj hstep
          exact hknown.withPeer hattempt houtcome rfl _ _ fun hfalse => by cases hfalse
        · obtain rfl := Option.some.inj hstep
          exact hknown.withPeer hattempt houtcome rfl _ _ fun _ => horigin
  | discoveryFails =>
      simp only [Fetch.step] at hstep
      split_ifs at hstep with hdiscovering
      obtain ⟨⟨hattempt, hgood, houtcome, -⟩, hfresh⟩ := h.undecided hdiscovering
      obtain rfl := Option.some.inj hstep
      have htally := hfresh.tally.fallback
      rw [hgood] at htally
      have hfailed : Fresh { fetch.count .fallbacks 1 with
          discovering := false, discoveryFailed := true } :=
        ⟨htally, hfresh.observations, hfresh.reports, fun hfalse => by cases hfalse⟩
      exact hfailed.withoutPeer hattempt houtcome rfl
  | attempt event =>
      simp only [Fetch.step] at hstep
      obtain ⟨attempt, hattempt, hstep⟩ := Option.bind_eq_some_iff.mp hstep
      obtain ⟨attempt', hgoes, hstep⟩ := Option.bind_eq_some_iff.mp hstep
      obtain rfl := Option.some.inj hstep
      refine (h.countIntegrity attempt event).attemptGoes ?_ (PeerAttempt.goesOn_of_step hgoes)
      rw [attempt_countIntegrity]
      exact hattempt
  | hedgeDelayEnds =>
      simp only [Fetch.step] at hstep
      split_ifs at hstep with henabled
      obtain rfl := Option.some.inj hstep
      exact h.startOrigin (by rw [henabled.1]; exact fun hfalse => by cases hfalse)
  | hedgeAborted =>
      simp only [Fetch.step] at hstep
      split_ifs at hstep with henabled
      obtain rfl := Option.some.inj hstep
      have hbusy : fetch.origin ≠ .idle := by
        rw [henabled.1]
        exact fun hfalse => by cases hfalse
      have hrejected := h.reject henabled.2.1 (h.not_discovering hbusy) (Or.inl henabled.2.2)
      exact hrejected.withOrigin hbusy
  | origin event => exact h.originStep hstep

/-! ### Beginnings -/

theorem accounted_fromCache (data : List UInt8) : Accounted (fromCache data) := by
  refine ⟨Tally.zero, rfl, rfl, ?_, ?_, ?_, ?_⟩
  · intro hfalse
    cases hfalse
  · intro _ hfalse
    exact absurd rfl hfalse
  · intro attempt hfalse
    cases hfalse
  · intro data' hfalse
    cases hfalse

theorem accounted_fetchUncachedSegment (aborted : Bool) :
    Accounted (fetchUncachedSegment aborted) := by
  refine ⟨Tally.zero, rfl, rfl, fun _ => ⟨rfl, rfl, rfl, rfl⟩, ?_, ?_, ?_⟩
  · intro _ hfalse
    exact absurd rfl hfalse
  · intro attempt hfalse
    cases hfalse
  · intro data hfalse
    cases hfalse

theorem accounted_fetchAssignedSegment (aborted : Bool) (peer : Option PeerId) :
    Accounted (fetchAssignedSegment options aborted peer) := by
  have hfresh : Fresh ⟨false, false, aborted, false, none, .idle, none, 0, [], []⟩ :=
    ⟨Tally.zero, rfl, rfl, fun hfalse => by cases hfalse⟩
  cases peer with
  | none => exact hfresh.withoutPeer rfl rfl rfl
  | some peerId => exact hfresh.withPeer rfl rfl rfl peerId none fun _ => rfl

end Fetch

namespace Fetcher

variable {options : Node.FetcherOptions} {fetcher fetcher' : Fetcher}

def Accounted (fetcher : Fetcher) : Prop := ∀ fetch ∈ fetcher.fetches, fetch.Accounted

theorem Accounted.start (h : fetcher.Accounted) (cached : Option (List UInt8)) {fetch : Fetch}
    (hfetch : fetch.Accounted) : Accounted (fetcher.start cached fetch) := by
  intro other hother
  rcases List.mem_append.mp hother with hold | hnew
  · exact h other hold
  · rw [List.mem_singleton.mp hnew]
    cases cached with
    | none => exact hfetch
    | some data => exact Fetch.accounted_fromCache data

theorem Accounted.set (h : fetcher.Accounted) (i : ℕ) {fetch : Fetch} (hfetch : fetch.Accounted) :
    Accounted { fetcher with fetches := fetcher.fetches.set i fetch } := by
  intro other hother
  rcases List.mem_or_eq_of_mem_set hother with hold | rfl
  · exact h other hold
  · exact hfetch

theorem Accounted.step {event : FetcherEvent} (h : fetcher.Accounted)
    (hstep : fetcher.step options event = some fetcher') : Accounted fetcher' := by
  cases event with
  | fetchSegment cached =>
      obtain rfl := Option.some.inj hstep
      exact h.start cached (Fetch.accounted_fetchUncachedSegment _)
  | fetchAssigned cached peer =>
      obtain rfl := Option.some.inj hstep
      exact h.start cached (Fetch.accounted_fetchAssignedSegment _ peer)
  | abort i =>
      simp only [Fetcher.step] at hstep
      obtain ⟨fetch, hget, hstep⟩ := Option.bind_eq_some_iff.mp hstep
      split_ifs at hstep
      obtain rfl := Option.some.inj hstep
      exact h.set i (h fetch (List.mem_of_getElem? hget)).abort
  | stop =>
      simp only [Fetcher.step] at hstep
      split_ifs at hstep
      obtain rfl := Option.some.inj hstep
      intro other hother
      rcases List.mem_map.mp hother with ⟨fetch, hmem, rfl⟩
      exact (h fetch hmem).abort
  | fetch i event =>
      simp only [Fetcher.step] at hstep
      obtain ⟨fetch, hget, hstep⟩ := Option.bind_eq_some_iff.mp hstep
      obtain ⟨fetch', hfetch, hstep⟩ := Option.bind_eq_some_iff.mp hstep
      obtain rfl := Option.some.inj hstep
      exact h.set i ((h fetch (List.mem_of_getElem? hget)).step hfetch)

theorem accounted_of_reachable (hr : (system options).Reachable (fun _ _ => True) fetcher) :
    fetcher.Accounted := by
  induction hr with
  | init h0 =>
      obtain rfl : _ = _ := h0
      exact fun _ hmem => absurd hmem List.not_mem_nil
  | step _ _ hstep ih => exact ih.step hstep

/-- Whatever the peers and the origin do, and in whatever order, each fetch counts its bytes and
its failed attempt once, and tells the scheduler of its attempt at most once. -/
theorem attempts_counted_once (hr : (system options).Reachable (fun _ _ => True) fetcher) :
    (∀ fetch ∈ fetcher.fetches, fetch.CountedOnce) ∧
      fetcher.stats .p2pSuccesses + fetcher.stats .p2pFailures ≤ fetcher.stats .p2pRequests := by
  have haccounted := accounted_of_reachable hr
  have hcounted : ∀ fetch ∈ fetcher.fetches, fetch.CountedOnce :=
    fun fetch hmem => (haccounted fetch hmem).countedOnce
  refine ⟨hcounted, ?_⟩
  unfold stats
  rw [← List.sum_map_add]
  apply List.sum_le_sum
  intro fetch hmem
  exact (hcounted fetch hmem).requests

/-- An assigned peer answers with an error, and the origin with the segment. -/
def missingOnPeer : List FetcherEvent :=
  [.fetchAssigned none (some "near"), .fetch 0 (.attempt (.httpError 404)),
    .fetch 0 (.origin (.answers [7])), .fetch 0 (.origin .hashMatches)]

def servedByOrigin : Fetch where
  discovering := false
  discoveryFailed := false
  aborted := false
  hedged := false
  attempt := some ⟨"near", .failed (some .http), .refuted, true, false, false⟩
  origin := .delivered
  outcome := some (some ⟨[7], .origin⟩)
  stats := countTraffic (countTraffic (countTraffic (countTraffic (countTraffic 0 .p2pRequests 1)
    .p2pFailures 1) .fallbacks 1) .originRequests 1) .bytesDownloadedOrigin 1
  observations := [⟨"near", false, 0, some .http⟩]
  reports := [⟨"near", .http⟩]

theorem run_missingOnPeer : (system Node.plainFetcher).run ⟨false, []⟩ missingOnPeer =
    some ⟨false, [servedByOrigin]⟩ := by
  decide +kernel

theorem attempts_counted_once_missingOnPeer :
    (∀ fetch ∈ [servedByOrigin], fetch.CountedOnce) ∧
      stats ⟨false, [servedByOrigin]⟩ .p2pSuccesses + stats ⟨false, [servedByOrigin]⟩ .p2pFailures ≤
        stats ⟨false, [servedByOrigin]⟩ .p2pRequests :=
  attempts_counted_once (TransitionSystem.reachable_of_run rfl run_missingOnPeer)

end Fetcher

end HybridSegmentFetcher

end OpenStreamGrid
