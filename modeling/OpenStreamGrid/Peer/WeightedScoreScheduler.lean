import OpenStreamGrid.Common.SchedulerPlans

/-!
# The Node peer's weighted score

Stateful scheduling policy: the scheduler smooths each peer's metrics over the
plans and transfers it sees, ranks the eligible candidates by a weighted score
and selects the first. Its plans are well-formed whatever it has learned.
-/

namespace OpenStreamGrid

def MINIMUM_TRUST_SCORE : ℚ := 3 / 10
def METRIC_EMA_ALPHA : ℚ := 3 / 10
def DEFAULT_URGENT_THRESHOLD_SEGMENTS : JsNumber := .finite 2

def LATENCY_WEIGHT : ℚ := 3 / 10
def SUCCESS_RATE_WEIGHT : ℚ := 3 / 10
def UPLOAD_BANDWIDTH_WEIGHT : ℚ := 2 / 10
def TRUST_SCORE_WEIGHT : ℚ := 2 / 10

def clamp (value minimum maximum : ℚ) : ℚ := min maximum (max minimum value)

/-- Quality measurements used to rank a potential segment source. -/
structure PeerQualityMetrics where
  latencyMs : ℚ
  successRate : ℚ
  uploadBandwidthBps : ℚ
  trustScore : ℚ
deriving DecidableEq

/-- Observation from a single peer fetch attempt. -/
structure PeerFetchObservation where
  peerId : PeerId
  succeeded : Bool
  latencyMs : ℚ
  bytes : ℚ
  failureReason : Option String
deriving DecidableEq

def exponentialMovingAverage (previous observed : ℚ) : ℚ :=
  METRIC_EMA_ALPHA * observed + (1 - METRIC_EMA_ALPHA) * previous

/-- A normalized weighted quality score for a peer. -/
def calculatePeerScore (metrics : PeerQualityMetrics) (maximumUploadBandwidthBps : ℚ) : ℚ :=
  let latencyScore := 1 - min (max metrics.latencyMs 0 / 1000) 1
  let successRateScore := clamp metrics.successRate 0 1
  let uploadBandwidthScore :=
    if maximumUploadBandwidthBps ≤ 0 then 0
    else clamp (metrics.uploadBandwidthBps / maximumUploadBandwidthBps) 0 1
  let trustScore := clamp metrics.trustScore 0 1
  LATENCY_WEIGHT * latencyScore + SUCCESS_RATE_WEIGHT * successRateScore +
    UPLOAD_BANDWIDTH_WEIGHT * uploadBandwidthScore + TRUST_SCORE_WEIGHT * trustScore

structure RankedCandidate where
  peer : SchedulingPeer
  inputIndex : ℕ
  metrics : PeerQualityMetrics
  score : ℚ
deriving DecidableEq

/-- Higher scores first, ties in the order of the tracker's response. -/
def RankedCandidate.compare (left right : RankedCandidate) : ℚ :=
  firstDifference [right.score - left.score,
    left.peer.originalIndex.getD left.inputIndex - right.peer.originalIndex.getD right.inputIndex]

structure WeightedScoreScheduler where
  peerMetrics : OrderedMap PeerId PeerQualityMetrics
  peerTrustScores : OrderedMap PeerId ℚ

namespace WeightedScoreScheduler

def policyName : String := "weighted-score"

def empty : WeightedScoreScheduler := ⟨∅, ∅⟩

def smoothMetrics (previous observed : PeerQualityMetrics) : PeerQualityMetrics where
  latencyMs := exponentialMovingAverage previous.latencyMs observed.latencyMs
  successRate := exponentialMovingAverage previous.successRate observed.successRate
  uploadBandwidthBps :=
    exponentialMovingAverage previous.uploadBandwidthBps observed.uploadBandwidthBps
  trustScore := exponentialMovingAverage previous.trustScore observed.trustScore

/-- The metrics of a candidate, smoothed over what was seen of it before. All its numbers are
finite. -/
def metricsFor (s : WeightedScoreScheduler) (peer : SchedulingPeer) :
    PeerQualityMetrics × WeightedScoreScheduler :=
  let observed : PeerQualityMetrics :=
    { latencyMs := max 0 peer.latencyMs
      successRate := clamp peer.successRate 0 1
      uploadBandwidthBps := max 0 peer.uploadBandwidthBps
      trustScore := clamp peer.trustScore 0 1 }
  let metrics :=
    match s.peerMetrics.get? peer.id with
    | none => observed
    | some previous => smoothMetrics previous observed
  (metrics, ⟨s.peerMetrics.set peer.id metrics, s.peerTrustScores.set peer.id observed.trustScore⟩)

/-- Measures candidates one after another. -/
def measureAll (s : WeightedScoreScheduler) : List (SchedulingPeer × ℕ) →
    List ((SchedulingPeer × ℕ) × PeerQualityMetrics) × WeightedScoreScheduler
  | [] => ([], s)
  | candidate :: rest =>
      let (metrics, s') := s.metricsFor candidate.1
      let (measured, s'') := measureAll s' rest
      ((candidate, metrics) :: measured, s'')

/-- The candidates that may be measured. -/
def eligible (context : SegmentSchedulingContext) : List (SchedulingPeer × ℕ) :=
  context.candidates.zipIdx.filter fun candidate =>
    candidate.1.id != context.selfPeerId && MINIMUM_TRUST_SCORE ≤ candidate.1.trustScore &&
      (context.segmentId.isEmpty || context.segmentId ∈ candidate.1.segments)

/-- Scores and sorts the measured candidates. -/
def rank (candidates : List ((SchedulingPeer × ℕ) × PeerQualityMetrics)) : List RankedCandidate :=
  let maximumUploadBandwidthBps :=
    candidates.foldl (fun maximum candidate => max maximum candidate.2.uploadBandwidthBps) 0
  sortBy RankedCandidate.compare (candidates.map fun candidate =>
    ⟨candidate.1.1, candidate.1.2, candidate.2,
      calculatePeerScore candidate.2 maximumUploadBandwidthBps⟩)

/-- The plan for ranked candidates: the first one alone. -/
def planRanked : List RankedCandidate → SegmentSchedulingPlan
  | [] => originPlan policyName .noEligibleCandidates
  | selected :: ranked =>
      { policy := policyName
        mode := .singlePeer
        peerIds := [selected.peer.id]
        rankedPeers := rankInOrder ["trusted", "segment_available", "weighted_score"]
          ((selected :: ranked).map fun candidate => (candidate.peer.id, some candidate.score))
        reason := .peerSelected
        execution := none }

def planSegment (urgentThresholdSegments : JsNumber) (context : SegmentSchedulingContext)
    (s : WeightedScoreScheduler) : SegmentSchedulingPlan × WeightedScoreScheduler :=
  if context.segmentsAhead.any (·.lt urgentThresholdSegments) then
    (originPlan policyName .urgentOrigin, s)
  else if context.candidates.isEmpty then (originPlan policyName .noCandidates, s)
  else
    let (measured, s') := s.measureAll (eligible context)
    let candidates := measured.filter fun candidate =>
      MINIMUM_TRUST_SCORE ≤ candidate.2.trustScore
    if candidates.isEmpty then (originPlan policyName .noEligibleCandidates, s')
    else (planRanked (rank candidates), s')

def observePeer (s : WeightedScoreScheduler) (observation : PeerFetchObservation) :
    WeightedScoreScheduler :=
  match s.peerMetrics.get? observation.peerId with
  | none => s
  | some previous =>
      let latencyMs := max 0 observation.latencyMs
      let bytes := max 0 observation.bytes
      let elapsedSeconds := max latencyMs 1 / 1000
      let observed : PeerQualityMetrics :=
        { latencyMs
          successRate := if observation.succeeded then 1 else 0
          uploadBandwidthBps := if observation.succeeded then bytes * 8 / elapsedSeconds else 0
          trustScore :=
            if observation.failureReason = some "integrity" then 0
            else (s.peerTrustScores.get? observation.peerId).getD previous.trustScore }
      { s with
        peerMetrics := s.peerMetrics.set observation.peerId (smoothMetrics previous observed) }

/-- Forgets the peers that are not listed any more. -/
def reconcilePeers (s : WeightedScoreScheduler) (peers : List SchedulingPeer) :
    WeightedScoreScheduler :=
  let gone := s.peerMetrics.keys.filter fun peerId => peerId ∉ peers.map SchedulingPeer.id
  ⟨gone.foldl OrderedMap.delete s.peerMetrics, gone.foldl OrderedMap.delete s.peerTrustScores⟩

def reset : WeightedScoreScheduler → WeightedScoreScheduler := fun _ => empty

/-- The scheduler behind its interface. -/
def scheduler (urgentThresholdSegments : JsNumber) :
    SegmentScheduler WeightedScoreScheduler SegmentSchedulingPlan where
  policyName _ := policyName
  planSegment context s :=
    let (plan, s') := planSegment urgentThresholdSegments context s
    (.ok plan, s')

/-! ## The states it can reach -/

/-- What its owner may call. -/
inductive Call where
  | planSegment (context : SegmentSchedulingContext)
  | observePeer (observation : PeerFetchObservation)
  | reconcilePeers (peers : List SchedulingPeer)
  | reset

def step (urgentThresholdSegments : JsNumber) (s : WeightedScoreScheduler) :
    Call → WeightedScoreScheduler
  | .planSegment context => (planSegment urgentThresholdSegments context s).2
  | .observePeer observation => s.observePeer observation
  | .reconcilePeers peers => s.reconcilePeers peers
  | .reset => s.reset

/-- The state after a sequence of calls. -/
def after (urgentThresholdSegments : JsNumber) (calls : List Call) : WeightedScoreScheduler :=
  calls.foldl (step urgentThresholdSegments) empty

/-! ## Its plans -/

theorem mem_of_mem_measureAll (candidates : List (SchedulingPeer × ℕ)) :
    ∀ (s : WeightedScoreScheduler), ∀ measured ∈ (s.measureAll candidates).1,
      measured.1 ∈ candidates := by
  induction candidates with
  | nil =>
      intro s measured h
      cases h
  | cons candidate rest ih =>
      intro s measured h
      rcases List.mem_cons.mp h with rfl | h
      · exact List.mem_cons_self
      · exact List.mem_cons_of_mem _ (ih _ measured h)

/-- An eligible candidate can be selected. -/
theorem selectable_of_mem_eligible {context : SegmentSchedulingContext}
    (hids : (context.candidates.map SchedulingPeer.id).Nodup) {candidate : SchedulingPeer × ℕ}
    (h : candidate ∈ eligible context) : context.Selectable candidate.1.id := by
  obtain ⟨hmem, heligible⟩ := List.mem_filter.mp h
  rw [Bool.and_eq_true, Bool.and_eq_true, Bool.or_eq_true, bne_iff_ne, String.isEmpty_iff]
    at heligible
  obtain ⟨⟨hself, -⟩, hsegment⟩ := heligible
  refine ⟨candidate.1, candidatesById_of_nodup hids (List.fst_mem_of_mem_zipIdx hmem), hself, ?_⟩
  intro hname
  rcases hsegment with hempty | hsegment
  · exact absurd hempty hname
  · exact of_decide_eq_true hsegment

theorem planRanked_wellFormed {context : SegmentSchedulingContext}
    (hmax : 1 ≤ context.maximumParallelism) {ranked : List RankedCandidate}
    (h : ∀ candidate ∈ ranked, context.Selectable candidate.peer.id) :
    (planRanked ranked).WellFormed context := by
  cases ranked with
  | nil => exact originPlan_wellFormed _ _ _
  | cons selected rest =>
      refine ⟨rfl, hmax, List.nodup_singleton _, ?_, ?_, ?_, ?_⟩
      · intro p hp
        rw [List.mem_singleton.mp hp]
        exact h selected List.mem_cons_self
      · show (rankInOrder _ _).map RankedPeer.rank = List.range' 1 (rankInOrder _ _).length
        rw [map_rank_rankInOrder, length_rankInOrder]
      · intro r hr
        obtain ⟨entry, hentry, hpeer⟩ := peerId_of_mem_rankInOrder hr
        obtain ⟨candidate, hcandidate, rfl⟩ := List.mem_map.mp hentry
        obtain ⟨peer, hget, hself, -⟩ := h candidate hcandidate
        rw [hpeer]
        exact ⟨Option.isSome_of_mem hget, hself⟩
      · intro hints hhints
        cases hhints

/-- **Every plan is well-formed**, from whatever state it is made. -/
theorem planSegment_wellFormed (urgentThresholdSegments : JsNumber)
    {context : SegmentSchedulingContext}
    (hids : (context.candidates.map SchedulingPeer.id).Nodup)
    (hmax : 1 ≤ context.maximumParallelism) (s : WeightedScoreScheduler) :
    (planSegment urgentThresholdSegments context s).1.WellFormed context ∧
      (planSegment urgentThresholdSegments context s).1.policy = policyName := by
  unfold planSegment
  split_ifs with hurgent hnone
  · exact ⟨originPlan_wellFormed _ _ _, rfl⟩
  · exact ⟨originPlan_wellFormed _ _ _, rfl⟩
  dsimp only
  split_ifs with hempty
  · exact ⟨originPlan_wellFormed _ _ _, rfl⟩
  refine ⟨planRanked_wellFormed hmax fun candidate hcandidate => ?_, ?_⟩
  · unfold rank at hcandidate
    rw [mem_sortBy] at hcandidate
    obtain ⟨measured, hmeasured, rfl⟩ := List.mem_map.mp hcandidate
    exact selectable_of_mem_eligible hids
      (mem_of_mem_measureAll _ s measured (List.mem_filter.mp hmeasured).1)
  · generalize rank _ = ranked
    cases ranked <;> rfl

end WeightedScoreScheduler

end OpenStreamGrid
