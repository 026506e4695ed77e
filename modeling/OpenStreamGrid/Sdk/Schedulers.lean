import OpenStreamGrid.Common.DeadlinePlans

/-!
# The browser's schedulers

`TrustLatencyProbeScheduler` keeps no state: it probes the first candidates by
the tracker's trust and latency in parallel. The browser's deadline-aware
scheduler decorates its plans, with whatever estimate of the origin latency the
plugin lends it.
-/

namespace OpenStreamGrid

namespace Sdk

def MAX_PARALLEL_PEER_PROBES : ℕ := 3

/-- The browser SDK's legacy trust and latency ordering. -/
def compareTrustAndLatency (left right : SchedulingPeer) : ℚ :=
  firstDifference [right.trustScore - left.trustScore, left.latencyMs - right.latencyMs]

namespace TrustLatencyProbeScheduler

def policyName : String := "trust-latency-probe"

/-- Every candidate but the local peer, with its place among them. -/
def ranked (context : SegmentSchedulingContext) : List (SchedulingPeer × ℕ) :=
  sortBy (fun left right => firstDifference [compareTrustAndLatency left.1 right.1,
      left.1.originalIndex.getD left.2 - right.1.originalIndex.getD right.2])
    (context.candidates.filter fun peer => peer.id != context.selfPeerId).zipIdx

def planSegment (context : SegmentSchedulingContext) : SegmentSchedulingPlan :=
  if context.candidates.isEmpty then originPlan policyName .noCandidates
  else if (ranked context).isEmpty then originPlan policyName .noEligibleCandidates
  else
    let parallelism := min MAX_PARALLEL_PEER_PROBES context.maximumParallelism
    let peerIds := ((ranked context).take parallelism).map fun candidate => candidate.1.id
    if peerIds.isEmpty then originPlan policyName .noEligibleCandidates
    else
      { policy := policyName
        mode := .parallelPeers
        peerIds
        rankedPeers := rankInOrder ["trusted", "latency_ranked", "parallel_probe"]
          ((ranked context).map fun candidate => (candidate.1.id, none))
        reason := .parallelPeerProbe
        execution := none }

/-- The scheduler behind its interface. -/
def scheduler : SegmentScheduler Unit SegmentSchedulingPlan where
  policyName _ := policyName
  planSegment context s := (.ok (planSegment context), s)

theorem mem_of_mem_ranked {context : SegmentSchedulingContext} {candidate : SchedulingPeer × ℕ}
    (h : candidate ∈ ranked context) :
    candidate.1 ∈ context.candidates ∧ candidate.1.id ≠ context.selfPeerId := by
  unfold ranked at h
  rw [mem_sortBy] at h
  obtain ⟨hmem, hself⟩ := List.mem_filter.mp (List.fst_mem_of_mem_zipIdx h)
  exact ⟨hmem, bne_iff_ne.mp hself⟩

/-- The ranked identifiers are distinct where the candidates' are. -/
theorem nodup_ranked {context : SegmentSchedulingContext}
    (hids : (context.candidates.map SchedulingPeer.id).Nodup) :
    ((ranked context).map fun candidate => candidate.1.id).Nodup := by
  have hperm : (ranked context).Perm
      (context.candidates.filter fun peer => peer.id != context.selfPeerId).zipIdx :=
    List.perm_insertionSort _ _
  refine (hperm.map fun candidate => candidate.1.id).nodup_iff.mpr ?_
  have hfst : ((context.candidates.filter fun peer => peer.id != context.selfPeerId).zipIdx.map
      fun candidate => candidate.1.id) =
      (context.candidates.filter fun peer => peer.id != context.selfPeerId).map
        SchedulingPeer.id := by
    conv_rhs => rw [← List.zipIdx_map_fst 0 (context.candidates.filter _), List.map_map]
    rfl
  rw [hfst]
  exact hids.sublist (List.filter_sublist.map _)

/-- **Every plan is well-formed** where every candidate advertises the segment. -/
theorem planSegment_wellFormed {context : SegmentSchedulingContext}
    (hids : (context.candidates.map SchedulingPeer.id).Nodup)
    (hsegment : ∀ candidate ∈ context.candidates, context.segmentId ∈ candidate.segments) :
    (planSegment context).WellFormed context ∧ (planSegment context).policy = policyName := by
  unfold planSegment
  split_ifs with hnone hempty
  · exact ⟨originPlan_wellFormed _ _ _, rfl⟩
  · exact ⟨originPlan_wellFormed _ _ _, rfl⟩
  dsimp only
  split_ifs with hselected
  · exact ⟨originPlan_wellFormed _ _ _, rfl⟩
  have hselectable : ∀ candidate ∈ ranked context, context.Selectable candidate.1.id := by
    intro candidate hcandidate
    obtain ⟨hmem, hself⟩ := mem_of_mem_ranked hcandidate
    exact ⟨candidate.1, candidatesById_of_nodup hids hmem, hself,
      fun _ => hsegment candidate.1 hmem⟩
  refine ⟨⟨?_, ?_, ?_, ?_, ?_, ?_, ?_⟩, rfl⟩
  · rw [List.isEmpty_iff] at hselected
    exact List.length_pos_of_ne_nil hselected
  · show (List.map _ (List.take _ _)).length ≤ _
    rw [List.length_map, List.length_take]
    exact (min_le_left _ _).trans (min_le_right _ _)
  · exact (nodup_ranked hids).sublist ((List.take_sublist _ _).map _)
  · intro p hp
    obtain ⟨candidate, hcandidate, rfl⟩ := List.mem_map.mp hp
    exact hselectable candidate (List.mem_of_mem_take hcandidate)
  · show (rankInOrder _ _).map RankedPeer.rank = List.range' 1 (rankInOrder _ _).length
    rw [map_rank_rankInOrder, length_rankInOrder]
  · intro r hr
    obtain ⟨entry, hentry, hpeer⟩ := peerId_of_mem_rankInOrder hr
    obtain ⟨candidate, hcandidate, rfl⟩ := List.mem_map.mp hentry
    obtain ⟨peer, hget, hself, -⟩ := hselectable candidate hcandidate
    rw [hpeer]
    exact ⟨Option.isSome_of_mem hget, hself⟩
  · intro hints hhints
    cases hhints

end TrustLatencyProbeScheduler

/-! ## Deadlines -/

namespace DeadlineAwareScheduler

open DeadlineAware

variable {σ : Type*} (baseScheduler : SegmentScheduler σ SegmentSchedulingPlan)
  (settings : DeadlineSettings)

/-- The estimate is whatever the plugin says at the time, so it is checked. -/
def planSegment (originLatencyEstimateMs : JsNumber) (context : SegmentSchedulingContext) (s : σ) :
    SegmentSchedulingPlan × σ :=
  let legacy := decorateBasePlan baseScheduler context .deadlineUnknownLegacy .legacyP2pFirst
    none s
  match context.deadline with
  | none => legacy
  | some deadline =>
      if deadline.kind = "unknown" then legacy
      else
        match deadline.slackMs.finite? with
        | none => (DeadlineAware.originPlan .originFallback none, s)
        | some slackMs =>
            match originLatencyEstimateMs.finite? with
            | none => (DeadlineAware.originPlan .originFallback
                ((executionSlack (some (.finite slackMs))).map .finite), s)
            | some estimateMs =>
                if estimateMs < 0 then (DeadlineAware.originPlan .originFallback
                  ((executionSlack (some (.finite slackMs))).map .finite), s)
                else planForSlack baseScheduler settings context slackMs estimateMs s

/-- The scheduler behind its interface; the plugin's estimate is part of its state. -/
def scheduler : SegmentScheduler (σ × JsNumber) SegmentSchedulingPlan where
  policyName _ := policyName
  planSegment context s :=
    (planSegment baseScheduler settings s.2 context s.1).map .ok fun base => (base, s.2)

/-- **Plans around a base scheduler that plans well are well-formed.** -/
theorem planSegment_wellFormed {baseScheduler : SegmentScheduler σ SegmentSchedulingPlan}
    (originLatencyEstimateMs : JsNumber) {context : SegmentSchedulingContext}
    (hdeadline : ∀ d ∈ context.deadline, d.WellFormed) {s : σ} {plan : SegmentSchedulingPlan}
    {s' : σ} (hbase : PlansWell baseScheduler context s plan s') :
    (planSegment baseScheduler settings originLatencyEstimateMs context s).1.WellFormed context ∧
      (planSegment baseScheduler settings originLatencyEstimateMs context s).1.policy
        = policyName := by
  have hlegacy := hbase.legacy_wellFormed hdeadline .deadlineUnknownLegacy
  unfold planSegment
  cases hd : context.deadline with
  | none => exact hlegacy
  | some deadline =>
      dsimp only
      split_ifs with hkind
      · exact hlegacy
      cases hslack : deadline.slackMs.finite? with
      | none => exact ⟨DeadlineAware.originPlan_wellFormed _ _ _, rfl⟩
      | some slackMs =>
          dsimp only
          cases originLatencyEstimateMs.finite? with
          | none => exact ⟨DeadlineAware.originPlan_wellFormed _ _ _, rfl⟩
          | some estimateMs =>
              dsimp only
              split_ifs with hnegative
              · exact ⟨DeadlineAware.originPlan_wellFormed _ _ _, rfl⟩
              · apply hbase.planForSlack_wellFormed hdeadline settings _ (not_lt.mp hnegative)
                rw [hd, Option.map_some, JsNumber.finite?_eq_some.mp hslack]

/-- A plan for a finite slack sends the segment to the origin by the latest safe start, or tries
peers first. -/
theorem planSegment_timely {context : SegmentSchedulingContext} {deadline : SegmentDeadline}
    {slackMs estimateMs : ℚ} (hdeadline : context.deadline = some deadline)
    (hslack : deadline.slackMs = .finite slackMs) (hestimate : 0 ≤ estimateMs) (s : σ) :
    Timely slackMs (latestSafeOriginStartMs settings slackMs estimateMs)
      (planSegment baseScheduler settings (.finite estimateMs) context s).1 := by
  have hmap : context.deadline.map SegmentDeadline.slackMs = some (.finite slackMs) := by
    rw [hdeadline, Option.map_some, hslack]
  have hlegacy := timely_legacy baseScheduler hmap
    (latestSafeOriginStartMs settings slackMs estimateMs) .deadlineUnknownLegacy s
  unfold planSegment
  rw [hdeadline]
  dsimp only
  split_ifs with hkind
  · exact hlegacy
  · rw [hslack]
    show Timely _ _ (if estimateMs < 0 then _ else _ : SegmentSchedulingPlan × σ).1
    rw [if_neg (not_lt.mpr hestimate)]
    exact planForSlack_timely baseScheduler settings hmap _ s

end DeadlineAwareScheduler

end Sdk

end OpenStreamGrid
