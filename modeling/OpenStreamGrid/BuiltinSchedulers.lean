import OpenStreamGrid.Peer.DeadlineAwareScheduler
import OpenStreamGrid.Sdk.Schedulers

/-!
# The built-in schedulers and the plan check

The check is made for schedulers nobody trusts. The schedulers the repository
ships never fail it: not after any history of plans, observations and
reconciliations, and not when the deadline wrappers rewrite their plans.
-/

namespace OpenStreamGrid

theorem WeightedScoreScheduler.plansWell (urgentThresholdSegments : JsNumber)
    {context : SegmentSchedulingContext}
    (hids : (context.candidates.map SchedulingPeer.id).Nodup)
    (hmax : 1 ≤ context.maximumParallelism) (s : WeightedScoreScheduler) :
    DeadlineAware.PlansWell (scheduler urgentThresholdSegments) context s
      (planSegment urgentThresholdSegments context s).1
      (planSegment urgentThresholdSegments context s).2 where
  planSegment_eq := rfl
  wellFormed := (planSegment_wellFormed urgentThresholdSegments hids hmax s).1
  policy_eq := (planSegment_wellFormed urgentThresholdSegments hids hmax s).2

theorem Sdk.TrustLatencyProbeScheduler.plansWell {context : SegmentSchedulingContext}
    (hids : (context.candidates.map SchedulingPeer.id).Nodup)
    (hsegment : ∀ candidate ∈ context.candidates, context.segmentId ∈ candidate.segments) :
    DeadlineAware.PlansWell scheduler context () (planSegment context) () where
  planSegment_eq := rfl
  wellFormed := (planSegment_wellFormed hids hsegment).1
  policy_eq := (planSegment_wellFormed hids hsegment).2

/-- **The built-in schedulers never need the fallback.** -/
theorem builtin_plans_accepted (urgentThresholdSegments : JsNumber)
    (calls : List WeightedScoreScheduler.Call) (originLatencyEstimator : OriginLatencyEstimator)
    (settings : DeadlineSettings) (originLatencyEstimateMs : JsNumber)
    (context : SegmentSchedulingContext)
    (hids : (context.candidates.map SchedulingPeer.id).Nodup)
    (hdeadline : ∀ d ∈ context.deadline, d.WellFormed)
    (hmax : 1 ≤ context.maximumParallelism) :
    let learned := WeightedScoreScheduler.after urgentThresholdSegments calls
    validateSchedulerPlan
      (WeightedScoreScheduler.planSegment urgentThresholdSegments context learned).1.toJs
      WeightedScoreScheduler.policyName context = [] ∧
    validateSchedulerPlan
      (Node.DeadlineAwareScheduler.planSegment
        (WeightedScoreScheduler.scheduler urgentThresholdSegments) settings context
        ⟨learned, originLatencyEstimator⟩).1.toJs
      DeadlineAware.policyName context = [] ∧
    ((∀ candidate ∈ context.candidates, context.segmentId ∈ candidate.segments) →
      validateSchedulerPlan (Sdk.TrustLatencyProbeScheduler.planSegment context).toJs
        Sdk.TrustLatencyProbeScheduler.policyName context = [] ∧
      validateSchedulerPlan
        (Sdk.DeadlineAwareScheduler.planSegment Sdk.TrustLatencyProbeScheduler.scheduler settings
          originLatencyEstimateMs context ()).1.toJs
        DeadlineAware.policyName context = []) := by
  intro learned
  have hweighted := WeightedScoreScheduler.planSegment_wellFormed urgentThresholdSegments hids hmax
    learned
  have hnode := Node.DeadlineAwareScheduler.planSegment_wellFormed settings hdeadline
    (s := ⟨learned, originLatencyEstimator⟩)
    (WeightedScoreScheduler.plansWell urgentThresholdSegments hids hmax learned)
  refine ⟨?_, ?_, fun hsegment => ⟨?_, ?_⟩⟩
  · rw [← hweighted.2]
    exact hweighted.1.validate hdeadline
  · rw [← hnode.2]
    exact hnode.1.validate hdeadline
  · have htrust := Sdk.TrustLatencyProbeScheduler.planSegment_wellFormed hids hsegment
    rw [← htrust.2]
    exact htrust.1.validate hdeadline
  · have hbrowser := Sdk.DeadlineAwareScheduler.planSegment_wellFormed settings
      originLatencyEstimateMs hdeadline
      (Sdk.TrustLatencyProbeScheduler.plansWell hids hsegment)
    rw [← hbrowser.2]
    exact hbrowser.1.validate hdeadline

/-- Two candidates with the segment, the local peer and a deadline close enough to hedge. -/
def hedgedContext : SegmentSchedulingContext where
  segmentId := "segment-7.ts"
  segmentsAhead := some (.finite 2)
  deadline := some ⟨"synthetic", .finite 3000, some (.finite 1500), none⟩
  candidates := [⟨"near", 30, 1, 8000000, 9 / 10, ["segment-7.ts"], some 0⟩,
    ⟨"far", 400, 1 / 2, 2000000, 9 / 10, ["segment-7.ts"], some 1⟩,
    ⟨"self", 1, 1, 8000000, 1, ["segment-7.ts"], some 2⟩]
  selfPeerId := "self"
  maximumParallelism := 3

theorem hedgedContext_wellFormed : ∀ d ∈ hedgedContext.deadline, d.WellFormed := by
  intro d hd
  obtain rfl := Option.some.inj hd
  exact ⟨by decide, rfl, by decide +kernel, rfl⟩

/-- A history: a plan, a failed transfer of the best peer, and a refreshed peer list. -/
def failedTransfer : List WeightedScoreScheduler.Call :=
  [.planSegment hedgedContext, .observePeer ⟨"near", false, 2000, 0, some "integrity"⟩,
    .reconcilePeers hedgedContext.candidates]

theorem builtin_plans_accepted_hedgedContext :
    validateSchedulerPlan
      (WeightedScoreScheduler.planSegment (.finite 2) hedgedContext
        (WeightedScoreScheduler.after (.finite 2) failedTransfer)).1.toJs
      WeightedScoreScheduler.policyName hedgedContext = [] ∧
    validateSchedulerPlan
      (Node.DeadlineAwareScheduler.planSegment (WeightedScoreScheduler.scheduler (.finite 2))
        .default hedgedContext
        ⟨WeightedScoreScheduler.after (.finite 2) failedTransfer, .default⟩).1.toJs
      DeadlineAware.policyName hedgedContext = [] ∧
    validateSchedulerPlan (Sdk.TrustLatencyProbeScheduler.planSegment hedgedContext).toJs
      Sdk.TrustLatencyProbeScheduler.policyName hedgedContext = [] ∧
    validateSchedulerPlan
      (Sdk.DeadlineAwareScheduler.planSegment Sdk.TrustLatencyProbeScheduler.scheduler .default
        (.finite 500) hedgedContext ()).1.toJs
      DeadlineAware.policyName hedgedContext = [] := by
  have h := builtin_plans_accepted (.finite 2) failedTransfer .default .default (.finite 500)
    hedgedContext (by decide) hedgedContext_wellFormed (by decide)
  exact ⟨h.1, h.2.1, h.2.2 (by decide)⟩

/-- The Node wrapper hedges here: 2300 ms before the origin is due, at most 1500 ms of waiting. -/
example : (Node.DeadlineAwareScheduler.planSegment (WeightedScoreScheduler.scheduler (.finite 2))
    .default hedgedContext ⟨.empty, .default⟩).1.execution =
    some ⟨.hedgedOrigin, some 1500, some 1500, some 3000⟩ := by
  decide +kernel

end OpenStreamGrid
