import OpenStreamGrid.Common.DeadlinePlans
import OpenStreamGrid.Peer.WeightedScoreScheduler

/-!
# The Node peer's deadline-aware scheduler

It decorates a base scheduler's plans with hints derived from the deadline and a
bounded estimate of the origin's latency, which the fetcher feeds.
-/

namespace OpenStreamGrid

/-! ## Origin latency -/

/-- A bounded exponentially weighted estimate of the origin's latency. Its constructor rejects
bounds and weights outside their ranges. -/
structure OriginLatencyEstimator where
  initialEstimateMs : ℚ
  alpha : ℚ
  minMs : ℚ
  maxMs : ℚ
  estimateMs : ℚ
  alpha_pos : 0 < alpha
  alpha_le : alpha ≤ 1
  minMs_nonneg : 0 ≤ minMs
  initial_mem : minMs ≤ initialEstimateMs ∧ initialEstimateMs ≤ maxMs
  estimate_mem : minMs ≤ estimateMs ∧ estimateMs ≤ maxMs

theorem clamp_mem {minimum maximum : ℚ} (h : minimum ≤ maximum) (value : ℚ) :
    minimum ≤ clamp value minimum maximum ∧ clamp value minimum maximum ≤ maximum :=
  ⟨le_min h (le_max_left _ _), min_le_left _ _⟩

namespace OriginLatencyEstimator

def DEFAULT_INITIAL_ESTIMATE_MS : ℚ := 500
def DEFAULT_ALPHA : ℚ := 3 / 10
def DEFAULT_MIN_MS : ℚ := 50
def DEFAULT_MAX_MS : ℚ := 10000

/-- The estimator where no options are given. -/
def default : OriginLatencyEstimator where
  initialEstimateMs := DEFAULT_INITIAL_ESTIMATE_MS
  alpha := DEFAULT_ALPHA
  minMs := DEFAULT_MIN_MS
  maxMs := DEFAULT_MAX_MS
  estimateMs := DEFAULT_INITIAL_ESTIMATE_MS
  alpha_pos := by norm_num [DEFAULT_ALPHA]
  alpha_le := by norm_num [DEFAULT_ALPHA]
  minMs_nonneg := by norm_num [DEFAULT_MIN_MS]
  initial_mem := by norm_num [DEFAULT_MIN_MS, DEFAULT_MAX_MS, DEFAULT_INITIAL_ESTIMATE_MS]
  estimate_mem := by norm_num [DEFAULT_MIN_MS, DEFAULT_MAX_MS, DEFAULT_INITIAL_ESTIMATE_MS]

def observe (e : OriginLatencyEstimator) (latencyMs : ℚ) : OriginLatencyEstimator :=
  { e with
    estimateMs := clamp (e.alpha * clamp latencyMs e.minMs e.maxMs + (1 - e.alpha) * e.estimateMs)
      e.minMs e.maxMs
    estimate_mem := clamp_mem (e.estimate_mem.1.trans e.estimate_mem.2) _ }

def reset (e : OriginLatencyEstimator) : OriginLatencyEstimator :=
  { e with
    estimateMs := e.initialEstimateMs
    estimate_mem := e.initial_mem }

theorem estimateMs_nonneg (e : OriginLatencyEstimator) : 0 ≤ e.estimateMs :=
  e.minMs_nonneg.trans e.estimate_mem.1

end OriginLatencyEstimator

/-! ## Planning -/

namespace Node.DeadlineAwareScheduler

open DeadlineAware

/-- The state of the base scheduler and of the estimator it shares with the fetcher. -/
structure State (σ : Type*) where
  base : σ
  originLatencyEstimator : OriginLatencyEstimator

variable {σ : Type*} (baseScheduler : SegmentScheduler σ SegmentSchedulingPlan)
  (settings : DeadlineSettings)

def planSegment (context : SegmentSchedulingContext) (s : State σ) :
    SegmentSchedulingPlan × State σ :=
  let legacy := (decorateBasePlan baseScheduler context .deadlineUnknownLegacy .legacyP2pFirst
    none s.base).map id fun base => { s with base }
  match context.deadline with
  | none => legacy
  | some deadline =>
      if deadline.kind = "unknown" then legacy
      else
        match deadline.slackMs.finite? with
        | none => (DeadlineAware.originPlan .originFallback none, s)
        | some slackMs =>
            (planForSlack baseScheduler settings context slackMs
              s.originLatencyEstimator.estimateMs s.base).map id fun base => { s with base }

def scheduler : SegmentScheduler (State σ) SegmentSchedulingPlan where
  policyName _ := policyName
  planSegment context s := (planSegment baseScheduler settings context s).map .ok id

/-- **Plans around a base scheduler that plans well are well-formed.** -/
theorem planSegment_wellFormed {baseScheduler : SegmentScheduler σ SegmentSchedulingPlan}
    {context : SegmentSchedulingContext} (hdeadline : ∀ d ∈ context.deadline, d.WellFormed)
    {s : State σ} {plan : SegmentSchedulingPlan} {s' : σ}
    (hbase : PlansWell baseScheduler context s.base plan s') :
    (planSegment baseScheduler settings context s).1.WellFormed context ∧
      (planSegment baseScheduler settings context s).1.policy = policyName := by
  have hlegacy := hbase.legacy_wellFormed hdeadline .deadlineUnknownLegacy
  unfold planSegment
  cases hd : context.deadline with
  | none => exact hlegacy
  | some deadline =>
      dsimp only
      split_ifs with hkind
      · exact hlegacy
      cases hslack : deadline.slackMs with
      | finite slackMs =>
          exact hbase.planForSlack_wellFormed hdeadline settings
            (by rw [hd, Option.map_some, hslack]) s.originLatencyEstimator.estimateMs_nonneg
      | infinity negative => exact ⟨DeadlineAware.originPlan_wellFormed _ _ _, rfl⟩
      | nan => exact ⟨DeadlineAware.originPlan_wellFormed _ _ _, rfl⟩

/-- A plan for a finite slack sends the segment to the origin by the latest safe start, or tries
peers first. -/
theorem planSegment_timely {context : SegmentSchedulingContext} {deadline : SegmentDeadline}
    {slackMs : ℚ} (hdeadline : context.deadline = some deadline)
    (hslack : deadline.slackMs = .finite slackMs) (s : State σ) :
    Timely slackMs
      (latestSafeOriginStartMs settings slackMs s.originLatencyEstimator.estimateMs)
      (planSegment baseScheduler settings context s).1 := by
  have hmap : context.deadline.map SegmentDeadline.slackMs = some (.finite slackMs) := by
    rw [hdeadline, Option.map_some, hslack]
  have hlegacy := timely_legacy baseScheduler hmap
    (latestSafeOriginStartMs settings slackMs s.originLatencyEstimator.estimateMs)
    .deadlineUnknownLegacy s.base
  unfold planSegment
  rw [hdeadline]
  dsimp only
  split_ifs with hkind
  · exact hlegacy
  · rw [hslack]
    exact planForSlack_timely baseScheduler settings hmap _ s.base

end Node.DeadlineAwareScheduler

end OpenStreamGrid
