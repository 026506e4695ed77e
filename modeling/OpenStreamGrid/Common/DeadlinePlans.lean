import OpenStreamGrid.Common.SchedulerPlans

/-!
# Deadline-derived execution hints

What the Node peer's and the browser's deadline-aware schedulers share: they hand
a segment to a base scheduler and decorate its plan with hints derived from the
slack, the expected origin latency and a safety margin. The plans are well-formed
where the base plans are, and `Timely` is all a plan made for a finite slack can
say about time.
-/

namespace OpenStreamGrid

/-- The settings of a deadline-aware scheduler. Its constructor rejects negative numbers. -/
structure DeadlineSettings where
  safetyMarginMs : ℚ
  maximumPeerProbeWindowMs : ℚ
  maximumHedgeDelayMs : ℚ
  safetyMarginMs_nonneg : 0 ≤ safetyMarginMs
  maximumPeerProbeWindowMs_nonneg : 0 ≤ maximumPeerProbeWindowMs
  maximumHedgeDelayMs_nonneg : 0 ≤ maximumHedgeDelayMs

/-- The settings where none are given. -/
def DeadlineSettings.default : DeadlineSettings :=
  ⟨200, 3000, 1500, by norm_num, by norm_num, by norm_num⟩

namespace DeadlineAware

def policyName : String := "deadline-aware"

/-- A finite slack, as far as it is not negative. -/
def executionSlack (slackMs : Option JsNumber) : Option ℚ :=
  (slackMs.bind JsNumber.finite?).map (max 0)

def originPlan (reason : SchedulingReason) (deadlineSlackMs : Option JsNumber) :
    SegmentSchedulingPlan where
  policy := policyName
  mode := .origin
  peerIds := []
  rankedPeers := []
  reason := reason
  execution := some ⟨.originOnly, none, none, executionSlack deadlineSlackMs⟩

def copyPlan (plan : SegmentSchedulingPlan) (reason : SchedulingReason)
    (execution : SegmentExecutionHints) : SegmentSchedulingPlan :=
  { plan with policy := policyName, reason := reason, execution := some execution }

section Decorate

variable {σ : Type*} (baseScheduler : SegmentScheduler σ SegmentSchedulingPlan)

def decorateBasePlan (context : SegmentSchedulingContext) (reason : SchedulingReason)
    (strategy : ExecutionStrategy) (hedgeDelayMs : Option ℚ) (s : σ) :
    SegmentSchedulingPlan × σ :=
  let ((plan, warnings), s') := planSegmentSafely baseScheduler context s
  let slackMs := executionSlack (context.deadline.map SegmentDeadline.slackMs)
  if !warnings.isEmpty then (originPlan .originFallback (slackMs.map .finite), s')
  else if plan.mode = .origin ∨ plan.peerIds = [] then
    (originPlan reason (slackMs.map .finite), s')
  else (copyPlan plan reason ⟨strategy, hedgeDelayMs, hedgeDelayMs, slackMs⟩, s')

/-- The time by which the origin must be asked. -/
def latestSafeOriginStartMs (settings : DeadlineSettings) (slackMs estimateMs : ℚ) : ℚ :=
  slackMs - estimateMs - settings.safetyMarginMs

/-- The plan for a known slack: straight to the origin where it is due, the base plan alone where
it is far off, hedged in between. -/
def planForSlack (settings : DeadlineSettings) (context : SegmentSchedulingContext)
    (slackMs estimateMs : ℚ) (s : σ) : SegmentSchedulingPlan × σ :=
  let latest := latestSafeOriginStartMs settings slackMs estimateMs
  if latest ≤ 0 then (originPlan .deadlineOrigin (some (.finite slackMs)), s)
  else if settings.maximumPeerProbeWindowMs < latest then
    decorateBasePlan baseScheduler context .deadlineRelaxedP2p .legacyP2pFirst none s
  else
    decorateBasePlan baseScheduler context .deadlineHedged .hedgedOrigin
      (some (min settings.maximumHedgeDelayMs (max 0 latest))) s

end Decorate

/-! ## The plans are well-formed -/

theorem executionSlack_nonneg {slackMs : Option JsNumber} {slack : ℚ}
    (h : slack ∈ executionSlack slackMs) : 0 ≤ slack := by
  obtain ⟨value, -, rfl⟩ := Option.map_eq_some_iff.mp h
  exact le_max_left _ _

theorem originPlan_wellFormed (reason : SchedulingReason) (deadlineSlackMs : Option JsNumber)
    (context : SegmentSchedulingContext) :
    (originPlan reason deadlineSlackMs).WellFormed context where
  admits := rfl
  parallelism := Nat.zero_le _
  nodup := List.nodup_nil
  selectable _ hp := absurd hp List.not_mem_nil
  ranks := rfl
  ranked _ hr := absurd hr List.not_mem_nil
  execution hints hhints := by
    obtain rfl := Option.some.inj hhints
    refine ⟨?_, ?_, fun slack hslack => executionSlack_nonneg hslack, ?_⟩
    · intro budget hbudget
      cases hbudget
    · intro delay hdelay
      cases hdelay
    · intro delay hdelay
      cases hdelay

/-- A base scheduler whose plans pass the check, in a given context. -/
structure PlansWell {σ : Type*} (baseScheduler : SegmentScheduler σ SegmentSchedulingPlan)
    (context : SegmentSchedulingContext) (s : σ) (plan : SegmentSchedulingPlan) (s' : σ) :
    Prop where
  planSegment_eq : baseScheduler.planSegment context s = (.ok plan, s')
  wellFormed : plan.WellFormed context
  policy_eq : plan.policy = baseScheduler.policyName s'

section Decorate

variable {σ : Type*} {baseScheduler : SegmentScheduler σ SegmentSchedulingPlan}
  {context : SegmentSchedulingContext} {s s' : σ} {plan : SegmentSchedulingPlan}

theorem PlansWell.planSegmentSafely (h : PlansWell baseScheduler context s plan s')
    (hdeadline : ∀ d ∈ context.deadline, d.WellFormed) :
    planSegmentSafely baseScheduler context s = ((plan, []), s') := by
  apply planSegmentSafely_of_accepted h.planSegment_eq
  rw [← h.policy_eq]
  exact h.wellFormed.validate hdeadline

/-- What decorating a well-formed plan gives: the plan goes to the origin, or its peers are kept
under the new hints. -/
theorem PlansWell.decorateBasePlan_eq (h : PlansWell baseScheduler context s plan s')
    (hdeadline : ∀ d ∈ context.deadline, d.WellFormed) (reason : SchedulingReason)
    (strategy : ExecutionStrategy) (hedgeDelayMs : Option ℚ) :
    decorateBasePlan baseScheduler context reason strategy hedgeDelayMs s =
      if plan.mode = .origin ∨ plan.peerIds = [] then
        (originPlan reason ((executionSlack
          (context.deadline.map SegmentDeadline.slackMs)).map .finite), s')
      else (copyPlan plan reason ⟨strategy, hedgeDelayMs, hedgeDelayMs,
        executionSlack (context.deadline.map SegmentDeadline.slackMs)⟩, s') := by
  unfold decorateBasePlan
  rw [h.planSegmentSafely hdeadline]
  rfl

theorem PlansWell.decorateBasePlan_wellFormed (h : PlansWell baseScheduler context s plan s')
    (hdeadline : ∀ d ∈ context.deadline, d.WellFormed) (reason : SchedulingReason)
    {strategy : ExecutionStrategy} (hstrategy : strategy ≠ .originOnly) {hedgeDelayMs : Option ℚ}
    (hnonneg : ∀ delay ∈ hedgeDelayMs, 0 ≤ delay)
    (hle : ∀ delay ∈ hedgeDelayMs, ∃ slack, executionSlack
      (context.deadline.map SegmentDeadline.slackMs) = some slack ∧ delay ≤ slack) :
    (decorateBasePlan baseScheduler context reason strategy hedgeDelayMs s).1.WellFormed context ∧
      (decorateBasePlan baseScheduler context reason strategy hedgeDelayMs s).1.policy
        = policyName := by
  rw [h.decorateBasePlan_eq hdeadline]
  split_ifs with horigin
  · exact ⟨originPlan_wellFormed _ _ _, rfl⟩
  rw [not_or] at horigin
  refine ⟨{ h.wellFormed with execution := ?_ }, rfl⟩
  intro hints hhints
  obtain rfl := Option.some.inj hhints
  refine ⟨?_, ?_, fun slack hslack => executionSlack_nonneg hslack, ?_⟩
  · exact fun budget hbudget => ⟨hnonneg budget hbudget, horigin.2⟩
  · exact fun delay hdelay => ⟨hnonneg delay hdelay, hstrategy, horigin.1⟩
  · intro delay hdelay
    obtain ⟨slack, hslack, hdelayle⟩ := hle delay hdelay
    refine ⟨fun slack' hslack' => ?_, fun hnone => ?_⟩
    · obtain rfl := Option.some.inj (hslack.symm.trans hslack')
      exact hdelayle
    · rw [show executionSlack _ = none from hnone] at hslack
      cases hslack

/-- Trying the peers first, without a hedge. -/
theorem PlansWell.legacy_wellFormed (h : PlansWell baseScheduler context s plan s')
    (hdeadline : ∀ d ∈ context.deadline, d.WellFormed) (reason : SchedulingReason) :
    (decorateBasePlan baseScheduler context reason .legacyP2pFirst none s).1.WellFormed context ∧
      (decorateBasePlan baseScheduler context reason .legacyP2pFirst none s).1.policy
        = policyName :=
  h.decorateBasePlan_wellFormed hdeadline reason (by decide)
    (fun delay hdelay => absurd hdelay (Option.not_mem_none delay))
    (fun delay hdelay => absurd hdelay (Option.not_mem_none delay))

/-- **A plan for a known slack is well-formed** where the base scheduler's is and the origin is
not expected to answer in negative time. -/
theorem PlansWell.planForSlack_wellFormed (h : PlansWell baseScheduler context s plan s')
    (hdeadline : ∀ d ∈ context.deadline, d.WellFormed) (settings : DeadlineSettings)
    {slackMs estimateMs : ℚ}
    (hslack : context.deadline.map SegmentDeadline.slackMs = some (.finite slackMs))
    (hestimate : 0 ≤ estimateMs) :
    (planForSlack baseScheduler settings context slackMs estimateMs s).1.WellFormed context ∧
      (planForSlack baseScheduler settings context slackMs estimateMs s).1.policy
        = policyName := by
  unfold planForSlack
  dsimp only
  split_ifs with hdue hrelaxed
  · exact ⟨originPlan_wellFormed _ _ _, rfl⟩
  · exact h.legacy_wellFormed hdeadline _
  · apply h.decorateBasePlan_wellFormed hdeadline _ (by decide)
    · intro delay hdelay
      obtain rfl := Option.some.inj hdelay
      exact le_min settings.maximumHedgeDelayMs_nonneg (le_max_left _ _)
    · intro delay hdelay
      obtain rfl := Option.some.inj hdelay
      refine ⟨max 0 slackMs, by rw [hslack]; rfl, ?_⟩
      -- The hedge delay is below the latest safe start, which is below the slack.
      have hlatest : latestSafeOriginStartMs settings slackMs estimateMs ≤ slackMs := by
        unfold latestSafeOriginStartMs
        linarith [settings.safetyMarginMs_nonneg]
      calc min settings.maximumHedgeDelayMs
              (max 0 (latestSafeOriginStartMs settings slackMs estimateMs))
          ≤ max 0 (latestSafeOriginStartMs settings slackMs estimateMs) := min_le_right _ _
        _ ≤ max 0 slackMs := max_le_max le_rfl hlatest

end Decorate

/-! ## What the plans say about time -/

/-- The plans made for a slack, where the origin must be asked by `latestMs`: straight to the
origin, peers first, or hedged by then. -/
inductive Timely (slackMs latestMs : ℚ) (plan : SegmentSchedulingPlan) : Prop where
  | origin (hmode : plan.mode = .origin) : Timely slackMs latestMs plan
  | relaxed (hpeers : plan.peerIds ≠ [])
      (hexecution : plan.execution = some ⟨.legacyP2pFirst, none, none, some (max 0 slackMs)⟩) :
      Timely slackMs latestMs plan
  | hedged {delayMs : ℚ} (hpeers : plan.peerIds ≠ []) (hdelay : delayMs ≤ max 0 latestMs)
      (hexecution : plan.execution =
        some ⟨.hedgedOrigin, some delayMs, some delayMs, some (max 0 slackMs)⟩) :
      Timely slackMs latestMs plan

section Timely

variable {σ : Type*} (baseScheduler : SegmentScheduler σ SegmentSchedulingPlan)

/-- A decorated plan goes to the origin or has peers and exactly these hints. -/
theorem decorateBasePlan_cases (context : SegmentSchedulingContext) (reason : SchedulingReason)
    (strategy : ExecutionStrategy) (hedgeDelayMs : Option ℚ) (s : σ) :
    (decorateBasePlan baseScheduler context reason strategy hedgeDelayMs s).1.mode = .origin ∨
    (decorateBasePlan baseScheduler context reason strategy hedgeDelayMs s).1.peerIds ≠ [] ∧
    (decorateBasePlan baseScheduler context reason strategy hedgeDelayMs s).1.execution =
      some ⟨strategy, hedgeDelayMs, hedgeDelayMs,
        executionSlack (context.deadline.map SegmentDeadline.slackMs)⟩ := by
  unfold decorateBasePlan
  generalize planSegmentSafely baseScheduler context s = planned
  obtain ⟨⟨plan, warnings⟩, s'⟩ := planned
  dsimp only
  split_ifs with hwarnings horigin
  · exact Or.inl rfl
  · exact Or.inl rfl
  · rw [not_or] at horigin
    exact Or.inr ⟨horigin.2, rfl⟩

/-- Peers first: nothing is said about time but the slack. -/
theorem timely_legacy {context : SegmentSchedulingContext} {slackMs : ℚ}
    (hslack : context.deadline.map SegmentDeadline.slackMs = some (.finite slackMs))
    (latestMs : ℚ) (reason : SchedulingReason) (s : σ) :
    Timely slackMs latestMs
      (decorateBasePlan baseScheduler context reason .legacyP2pFirst none s).1 := by
  rcases decorateBasePlan_cases baseScheduler context reason .legacyP2pFirst none s with
    hmode | ⟨hpeers, hexecution⟩
  · exact .origin hmode
  · rw [hslack] at hexecution
    exact .relaxed hpeers hexecution

theorem planForSlack_timely (settings : DeadlineSettings) {context : SegmentSchedulingContext}
    {slackMs : ℚ}
    (hslack : context.deadline.map SegmentDeadline.slackMs = some (.finite slackMs))
    (estimateMs : ℚ) (s : σ) :
    Timely slackMs (latestSafeOriginStartMs settings slackMs estimateMs)
      (planForSlack baseScheduler settings context slackMs estimateMs s).1 := by
  unfold planForSlack
  dsimp only
  split_ifs with hdue hrelaxed
  · exact .origin rfl
  · exact timely_legacy baseScheduler hslack _ _ s
  · rcases decorateBasePlan_cases baseScheduler context .deadlineHedged .hedgedOrigin
      (some (min settings.maximumHedgeDelayMs
        (max 0 (latestSafeOriginStartMs settings slackMs estimateMs)))) s with
      hmode | ⟨hpeers, hexecution⟩
    · exact .origin hmode
    · rw [hslack] at hexecution
      exact .hedged hpeers (min_le_right _ _) hexecution

end Timely

/-- The check only ever replaces a plan by the fallback to the origin. -/
theorem Timely.planSegmentSafely {σ : Type*} {scheduler : SegmentScheduler σ SegmentSchedulingPlan}
    {context : SegmentSchedulingContext} {s s' : σ} {plan : SegmentSchedulingPlan}
    {slackMs latestMs : ℚ} (hplan : scheduler.planSegment context s = (.ok plan, s'))
    (h : Timely slackMs latestMs plan) :
    Timely slackMs latestMs (planSegmentSafely scheduler context s).1.1 := by
  unfold OpenStreamGrid.planSegmentSafely
  rw [hplan]
  dsimp only
  split_ifs with hwarnings
  · exact h
  · exact .origin rfl

end DeadlineAware

end OpenStreamGrid
