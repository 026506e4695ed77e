import OpenStreamGrid.Lib.TimedSystem
import OpenStreamGrid.Common.BatchPlanning
import OpenStreamGrid.Peer.DeadlineAwareScheduler

/-!
# Fetching a segment in the Node peer

`fetchSegment` tries one peer, unless the plan says the origin: alone, or hedged by
an origin request that starts after a delay or with the peer's failure. An attempt
goes to the peer directly or through a transport manager, and ends in a check
against the origin's hash, which a budget cannot cut short. What happens in one go
after an event is one step; aborted requests end with the step that aborts them.
-/

namespace OpenStreamGrid

namespace Node

def DEFAULT_P2P_TIMEOUT_MS : ℚ≥0 := 2000
def DEFAULT_ORIGIN_TIMEOUT_MS : ℚ≥0 := 10000
def HASH_REQUEST_TIMEOUT_MS : ℚ≥0 := 5000
def DEFAULT_WEBRTC_REQUEST_TIMEOUT_MS : ℚ≥0 := 15000

/-- Tries WebRTC first and falls back to HTTP; each adapter may have a verifier. -/
structure TransportManager where
  webRtcEnabled : Bool
  webRtcTimeoutMs : ℚ≥0
  webRtcVerifier : Bool
  httpTimeoutMs : ℚ≥0
  httpVerifier : Bool

/-- The fetcher's options. A duration is given where deadline scheduling is enabled. -/
structure FetcherOptions where
  selfPeerId : PeerId
  p2pTimeoutMs : ℚ≥0
  maxParallel : ℕ
  maxParallel_pos : 0 < maxParallel
  transportManager : Option TransportManager
  segmentDurationMs : Option {duration : ℚ // 0 < duration}
  settings : DeadlineSettings

/-! ## Planning -/

def schedulingPeersFor (peers : List Peer) : List SchedulingPeer :=
  peers.zipIdx.map fun indexed =>
    { id := indexed.1.id
      latencyMs := indexed.1.latencyMs
      successRate := indexed.1.successRate
      uploadBandwidthBps := (indexed.1.uploadBandwidthBps.map fun bps => (bps : ℚ)).getD 0
      trustScore := indexed.1.trustScore
      segments := indexed.1.segments
      originalIndex := some indexed.2 }

def peersById (peers : List Peer) : OrderedMap PeerId Peer :=
  peers.foldl (fun byId peer => byId.set peer.id peer) ∅

namespace FetcherOptions

def deadlineConfig (options : FetcherOptions) : Option BatchSyntheticDeadlineConfig :=
  options.segmentDurationMs.map fun duration => ⟨.finite duration⟩

/-- The deadline of a segment so many segments ahead. -/
def syntheticDeadline (options : FetcherOptions) (segmentsAhead : JsNumber) :
    Option SegmentDeadline :=
  options.deadlineConfig.map fun config =>
    OpenStreamGrid.syntheticDeadline segmentsAhead config.segmentDurationMs

section Planning

variable {σ : Type*} (options : FetcherOptions)
  (baseScheduler : SegmentScheduler σ SegmentSchedulingPlan)

def scheduler : SegmentScheduler (DeadlineAwareScheduler.State σ) SegmentSchedulingPlan :=
  DeadlineAwareScheduler.scheduler baseScheduler options.settings

def planningContext (peers : List Peer) (segmentName : SegmentId) (segmentsAhead : JsNumber) :
    SegmentSchedulingContext where
  segmentId := segmentName
  segmentsAhead := some segmentsAhead
  deadline := options.syntheticDeadline segmentsAhead
  candidates := schedulingPeersFor peers
  selfPeerId := options.selfPeerId
  maximumParallelism := options.maxParallel

/-- The peers in the order to try them, with the plan. The state is the one after the scheduler
has been told of the peers. -/
def planPeers (peers : List Peer) (segmentName : SegmentId) (segmentsAhead : JsNumber)
    (s : DeadlineAwareScheduler.State σ) : List Peer × SegmentSchedulingPlan :=
  let plan := (planSegmentSafely (options.scheduler baseScheduler)
    (options.planningContext peers segmentName segmentsAhead) s).1.1
  if plan.mode = .origin then ([], plan)
  else
    let orderedPeerIds := plan.peerIds ++
      (plan.rankedPeers.map RankedPeer.peerId).filter fun peerId => peerId ∉ plan.peerIds
    (orderedPeerIds.filterMap (peersById peers).get?, plan)

end Planning

end FetcherOptions

/-! ## Peer attempts -/

inductive AttemptStage where
  /-- Requested by the fetcher itself, under its own timer alone. -/
  | direct
  | webRtc (timeoutAt : ℚ≥0)
  | verifyingWebRtc (timeoutAt : ℚ≥0)
  | http (timeoutAt : ℚ≥0)
  | verifyingHttp (timeoutAt : ℚ≥0)
  /-- The fetcher's own check of what it was given. -/
  | verifying (timeoutAt : ℚ≥0)
  | delivered
  | failed
deriving DecidableEq

inductive AttemptEvent where
  /-- The complete answer arrives, whatever bytes it has, -/
  | answers
  /-- or an error does, or no connection can be made. -/
  | fails
  | timesOut
  /-- The fetcher's timer fires. -/
  | aborts
  | hashMatches
  /-- The bytes differ from the published hash, or there is no hash to be had. -/
  | hashFails
deriving DecidableEq

/-- `fetchFromPeer` under way. -/
structure PeerAttempt where
  stage : AttemptStage
  /-- When the fetcher's timer fires, if it has one. -/
  abortAt : Option ℚ≥0
  aborted : Bool
deriving DecidableEq

namespace PeerAttempt

def start (options : FetcherOptions) (clock : ℚ≥0) (attemptBudgetMs : Option ℚ≥0) : PeerAttempt :=
  match options.transportManager with
  | none =>
      let timeoutMs := match attemptBudgetMs with
        | none => options.p2pTimeoutMs
        | some budgetMs => min options.p2pTimeoutMs budgetMs
      ⟨.direct, some (clock + timeoutMs), false⟩
  | some manager =>
      ⟨if manager.webRtcEnabled then .webRtc (clock + manager.webRtcTimeoutMs)
        else .http (clock + manager.httpTimeoutMs), attemptBudgetMs.map (clock + ·), false⟩

def timers (attempt : PeerAttempt) : List ℚ≥0 :=
  match attempt.stage with
  | .direct => attempt.abortAt.toList
  | .webRtc timeoutAt | .verifyingWebRtc timeoutAt | .http timeoutAt | .verifyingHttp timeoutAt
  | .verifying timeoutAt => timeoutAt :: attempt.abortAt.toList
  | .delivered | .failed => []

/-- The manager's second try. An aborted request is not made. -/
def fallBack (manager : TransportManager) (clock : ℚ≥0) (attempt : PeerAttempt) : PeerAttempt :=
  { attempt with
    stage := if attempt.aborted then .failed else .http (clock + manager.httpTimeoutMs) }

def verify (clock : ℚ≥0) (attempt : PeerAttempt) : PeerAttempt :=
  { attempt with stage := .verifying (clock + HASH_REQUEST_TIMEOUT_MS) }

/-- What the fetcher's timer does: a request ends, a check goes on. -/
def abort (attempt : PeerAttempt) : PeerAttempt :=
  match attempt.stage with
  | .direct | .webRtc _ | .http _ => { attempt with stage := .failed, aborted := true }
  | _ => { attempt with abortAt := none, aborted := true }

def step (options : FetcherOptions) (clock : ℚ≥0) (attempt : PeerAttempt) (e : AttemptEvent) :
    Option PeerAttempt :=
  match e with
  | .aborts => do
      let due ← attempt.abortAt
      if due ≤ clock ∧ attempt.stage ≠ .delivered ∧ attempt.stage ≠ .failed then
        some attempt.abort
      else none
  | _ =>
    match attempt.stage, e with
    | .direct, .answers => some (attempt.verify clock)
    | .direct, .fails => some { attempt with stage := .failed }
    | .webRtc _, .answers => do
        let manager ← options.transportManager
        return if manager.webRtcVerifier then
            { attempt with stage := .verifyingWebRtc (clock + HASH_REQUEST_TIMEOUT_MS) }
          else attempt.verify clock
    | .webRtc _, .fails => do
        let manager ← options.transportManager
        return attempt.fallBack manager clock
    | .webRtc timeoutAt, .timesOut => do
        let manager ← options.transportManager
        if timeoutAt ≤ clock then some (attempt.fallBack manager clock) else none
    | .verifyingWebRtc _, .hashMatches => some (attempt.verify clock)
    | .verifyingWebRtc _, .hashFails => do
        let manager ← options.transportManager
        return attempt.fallBack manager clock
    | .http _, .answers => do
        let manager ← options.transportManager
        return if manager.httpVerifier then
            { attempt with stage := .verifyingHttp (clock + HASH_REQUEST_TIMEOUT_MS) }
          else attempt.verify clock
    | .http _, .fails => some { attempt with stage := .failed }
    | .http timeoutAt, .timesOut =>
        if timeoutAt ≤ clock then some { attempt with stage := .failed } else none
    | .verifyingHttp _, .hashMatches => some (attempt.verify clock)
    | .verifyingHttp _, .hashFails => some { attempt with stage := .failed }
    | .verifying _, .hashMatches => some { attempt with stage := .delivered }
    | .verifying _, .hashFails => some { attempt with stage := .failed }
    | _, _ => none

end PeerAttempt

/-! ## Origin requests -/

/-- `fetchFromOrigin` under way. Its timer ends the request, not the check. -/
inductive OriginRequest where
  | requesting (timeoutAt : ℚ≥0)
  | verifying (timeoutAt : ℚ≥0)
  | delivered
  | failed
deriving DecidableEq

inductive OriginEvent where
  | answers
  | fails
  | timesOut
  | hashMatches
  | hashFails
deriving DecidableEq

namespace OriginRequest

def start (clock : ℚ≥0) : OriginRequest := .requesting (clock + DEFAULT_ORIGIN_TIMEOUT_MS)

def timers : OriginRequest → List ℚ≥0
  | .requesting timeoutAt | .verifying timeoutAt => [timeoutAt]
  | .delivered | .failed => []

def step (clock : ℚ≥0) : OriginRequest → OriginEvent → Option OriginRequest
  | .requesting _, .answers => some (.verifying (clock + HASH_REQUEST_TIMEOUT_MS))
  | .requesting _, .fails => some .failed
  | .requesting timeoutAt, .timesOut => if timeoutAt ≤ clock then some .failed else none
  | .verifying _, .hashMatches => some .delivered
  | .verifying _, .hashFails => some .failed
  | _, _ => none

end OriginRequest

/-! ## The fetch -/

/-- The origin's part of a hedged fetch. -/
inductive HedgeStage where
  | waiting (startAt : ℚ≥0)
  | started (request : OriginRequest)
deriving DecidableEq

inductive FetchStage where
  /-- A peer alone. -/
  | tryingPeer (attempt : PeerAttempt)
  | hedging (attempt : PeerAttempt) (hedge : HedgeStage)
  | fetchingOrigin (request : OriginRequest)
  /-- Verified bytes are there. -/
  | obtained
  | failed
deriving DecidableEq

structure SegmentFetch where
  stage : FetchStage
  originStartedAt : Option ℚ≥0
  /-- When verified bytes of a peer, or of the cache, were there. -/
  bytesAt : Option ℚ≥0
deriving DecidableEq

inductive FetchEvent where
  | attempt (event : AttemptEvent)
  | hedgeStarts
  | origin (event : OriginEvent)
deriving DecidableEq

namespace SegmentFetch

def timers (fetch : SegmentFetch) : List ℚ≥0 :=
  match fetch.stage with
  | .tryingPeer attempt => attempt.timers
  | .hedging attempt (.waiting startAt) => startAt :: attempt.timers
  | .hedging attempt (.started request) => attempt.timers ++ request.timers
  | .fetchingOrigin request => request.timers
  | .obtained | .failed => []

def Settled (fetch : SegmentFetch) : Prop := fetch.stage = .obtained ∨ fetch.stage = .failed

instance (fetch : SegmentFetch) : Decidable fetch.Settled :=
  inferInstanceAs (Decidable (_ ∨ _))

def startOrigin (clock : ℚ≥0) (fetch : SegmentFetch) : SegmentFetch :=
  { fetch with stage := .fetchingOrigin (.start clock), originStartedAt := some clock }

/-- A peer's verified bytes settle the fetch. -/
def deliver (clock : ℚ≥0) (fetch : SegmentFetch) : SegmentFetch :=
  { fetch with stage := .obtained, bytesAt := some clock }

/-- How a fetch goes on when its attempt has. A failed one makes a waiting hedge start. -/
def continueAttempt (clock : ℚ≥0) (fetch : SegmentFetch) (attempt : PeerAttempt) : SegmentFetch :=
  match fetch.stage with
  | .tryingPeer _ =>
      if attempt.stage = .delivered then fetch.deliver clock
      else if attempt.stage = .failed then fetch.startOrigin clock
      else { fetch with stage := .tryingPeer attempt }
  | .hedging _ hedge =>
      if attempt.stage = .delivered then fetch.deliver clock
      else if attempt.stage = .failed then
        match hedge with
        | .waiting _ =>
            { fetch with
              stage := .hedging attempt (.started (.start clock)), originStartedAt := some clock }
        | .started .failed => { fetch with stage := .failed }
        | .started request => { fetch with stage := .hedging attempt (.started request) }
      else { fetch with stage := .hedging attempt hedge }
  | _ => fetch

/-- How a fetch goes on when its origin request has. -/
def continueOrigin (fetch : SegmentFetch) (request : OriginRequest) : SegmentFetch :=
  match fetch.stage with
  | .fetchingOrigin _ =>
      if request = .delivered then { fetch with stage := .obtained }
      else if request = .failed then { fetch with stage := .failed }
      else { fetch with stage := .fetchingOrigin request }
  | .hedging attempt _ =>
      if request = .delivered then { fetch with stage := .obtained }
      else if request = .failed ∧ attempt.stage = .failed then { fetch with stage := .failed }
      else { fetch with stage := .hedging attempt (.started request) }
  | _ => fetch

def attempt? (fetch : SegmentFetch) : Option PeerAttempt :=
  match fetch.stage with
  | .tryingPeer attempt | .hedging attempt _ => some attempt
  | _ => none

def request? (fetch : SegmentFetch) : Option OriginRequest :=
  match fetch.stage with
  | .hedging _ (.started request) | .fetchingOrigin request => some request
  | _ => none

def step (options : FetcherOptions) (clock : ℚ≥0) (fetch : SegmentFetch) :
    FetchEvent → Option SegmentFetch
  | .attempt e => do
      let attempt ← fetch.attempt?
      let attempt' ← attempt.step options clock e
      return fetch.continueAttempt clock attempt'
  | .hedgeStarts =>
      match fetch.stage with
      | .hedging attempt (.waiting startAt) =>
          if startAt ≤ clock then
            some { fetch with
              stage := .hedging attempt (.started (.start clock)), originStartedAt := some clock }
          else none
      | _ => none
  | .origin e => do
      let request ← fetch.request?
      let request' ← request.step clock e
      return fetch.continueOrigin request'

end SegmentFetch

/-- A fetch that tries a peer first, where there is one. -/
def fetchAssignedSegment (options : FetcherOptions) (clock : ℚ≥0) (peer : Option Peer) :
    SegmentFetch :=
  match peer with
  | some _ => ⟨.tryingPeer (.start options clock none), none, none⟩
  | none => ⟨.fetchingOrigin (.start clock), some clock, none⟩

/-- The fetch as it is when `fetchUncachedSegment` has planned it, at time zero. -/
def fetchUncachedSegment {σ : Type*} (options : FetcherOptions)
    (baseScheduler : SegmentScheduler σ SegmentSchedulingPlan) (peers : List Peer)
    (segmentName : SegmentId) (segmentsAhead : JsNumber) (s : DeadlineAwareScheduler.State σ) :
    SegmentFetch :=
  let (planned, plan) := options.planPeers baseScheduler peers segmentName segmentsAhead s
  match planned.head?, plan.execution with
  | some _, some ⟨.hedgedOrigin, peerAttemptBudgetMs, originHedgeDelayMs, _⟩ =>
      ⟨.hedging (.start options 0 (peerAttemptBudgetMs.map Rat.toNNRat))
        (.waiting (originHedgeDelayMs.getD 0).toNNRat), none, none⟩
  | peer, _ => fetchAssignedSegment options 0 peer

/-- The runs of a fetch under every behaviour and timing of the peer, the hash and the origin. -/
def segmentFetching (options : FetcherOptions) (fetch : SegmentFetch) :
    TimedSystem SegmentFetch FetchEvent where
  init s := s = fetch
  timers := SegmentFetch.timers
  event clock s e := s.step options clock e

end Node

end OpenStreamGrid
