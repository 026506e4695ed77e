import Mathlib.Data.List.Sort
import OpenStreamGrid.Common.Types

/-!
# Scheduling contexts and plans

What a scheduler is asked and what it answers. A plan comes from code the
fetchers do not trust, so the functions that receive one take it as untyped plain
data; the built-in schedulers produce the typed plans below. The metrics of a
candidate are exact numbers, the times of a deadline may be any number.
-/

namespace OpenStreamGrid

/-- A candidate as the schedulers see it. -/
structure SchedulingPeer where
  id : PeerId
  latencyMs : ℚ
  successRate : ℚ
  uploadBandwidthBps : ℚ
  trustScore : ℚ
  segments : List SegmentId
  /-- Original position in the tracker response, used for stable tie-breaking. -/
  originalIndex : Option ℚ
deriving DecidableEq

/-- Time remaining before a segment is expected to be required for playback. The kind is
checked when a plan is, so it is any text here. -/
structure SegmentDeadline where
  kind : String
  slackMs : JsNumber
  segmentDurationMs : Option JsNumber
  bufferAheadMs : Option JsNumber
deriving DecidableEq

/-- Context provided to the scheduler for one segment decision. -/
structure SegmentSchedulingContext where
  segmentId : SegmentId
  segmentsAhead : Option JsNumber
  deadline : Option SegmentDeadline
  candidates : List SchedulingPeer
  selfPeerId : PeerId
  maximumParallelism : ℕ
deriving DecidableEq

/-- The candidates by identifier, the last one of each. -/
def candidatesById (candidates : List SchedulingPeer) : OrderedMap PeerId SchedulingPeer :=
  candidates.foldl (fun byId candidate => byId.set candidate.id candidate) ∅

theorem candidatesById_concat (candidates : List SchedulingPeer) (candidate : SchedulingPeer) :
    candidatesById (candidates ++ [candidate])
      = (candidatesById candidates).set candidate.id candidate := by
  rw [candidatesById, List.foldl_append]
  rfl

theorem mem_of_candidatesById {candidates : List SchedulingPeer} {p : PeerId}
    {candidate : SchedulingPeer} (h : (candidatesById candidates).get? p = some candidate) :
    candidate ∈ candidates ∧ candidate.id = p := by
  induction candidates using List.reverseRecOn with
  | nil => cases h
  | append_singleton rest last ih =>
      rw [candidatesById_concat, OrderedMap.get?_set] at h
      split_ifs at h with hlast
      · obtain rfl := Option.some.inj h
        exact ⟨by simp, hlast.symm⟩
      · obtain ⟨hmem, hid⟩ := ih h
        exact ⟨List.mem_append_left _ hmem, hid⟩

theorem candidatesById_of_nodup {candidates : List SchedulingPeer}
    (hnodup : (candidates.map SchedulingPeer.id).Nodup) {candidate : SchedulingPeer}
    (h : candidate ∈ candidates) :
    (candidatesById candidates).get? candidate.id = some candidate := by
  induction candidates using List.reverseRecOn with
  | nil => cases h
  | append_singleton rest last ih =>
      rw [List.map_append, List.map_singleton] at hnodup
      have hrest := (List.nodup_append.mp hnodup).1
      rw [candidatesById_concat, OrderedMap.get?_set]
      rcases List.mem_append.mp h with hmem | hlast
      · have hne : candidate.id ≠ last.id := by
          intro heq
          exact (List.nodup_append.mp hnodup).2.2 _ (List.mem_map_of_mem hmem) _
            (List.mem_singleton_self _) heq
        rw [if_neg hne]
        exact ih hrest hmem
      · rw [List.mem_singleton.mp hlast, if_pos rfl]

/-! ## Plans -/

inductive SchedulingMode where
  | origin
  | singlePeer
  | parallelPeers
deriving DecidableEq

def SchedulingMode.text : SchedulingMode → String
  | .origin => "origin"
  | .singlePeer => "single-peer"
  | .parallelPeers => "parallel-peers"

/-- Why the scheduler chose this plan. -/
inductive SchedulingReason where
  | urgentOrigin
  | noCandidates
  | noEligibleCandidates
  | peerSelected
  | parallelPeerProbe
  | peerFailed
  | originFallback
  | deadlineOrigin
  | deadlineHedged
  | deadlineRelaxedP2p
  | deadlineUnknownLegacy
deriving DecidableEq

def SchedulingReason.text : SchedulingReason → String
  | .urgentOrigin => "urgent_origin"
  | .noCandidates => "no_candidates"
  | .noEligibleCandidates => "no_eligible_candidates"
  | .peerSelected => "peer_selected"
  | .parallelPeerProbe => "parallel_peer_probe"
  | .peerFailed => "peer_failed"
  | .originFallback => "origin_fallback"
  | .deadlineOrigin => "deadline_origin"
  | .deadlineHedged => "deadline_hedged"
  | .deadlineRelaxedP2p => "deadline_relaxed_p2p"
  | .deadlineUnknownLegacy => "deadline_unknown_legacy"

/-- One ranked peer in a scheduling plan. -/
structure RankedPeer where
  peerId : PeerId
  score : Option ℚ
  rank : ℕ
  reasons : List String
deriving DecidableEq

inductive ExecutionStrategy where
  | legacyP2pFirst
  | originOnly
  | hedgedOrigin
deriving DecidableEq

def ExecutionStrategy.text : ExecutionStrategy → String
  | .legacyP2pFirst => "legacy-p2p-first"
  | .originOnly => "origin-only"
  | .hedgedOrigin => "hedged-origin"

/-- Runtime behavior requested by a scheduler without performing transport I/O. -/
structure SegmentExecutionHints where
  strategy : ExecutionStrategy
  peerAttemptBudgetMs : Option ℚ
  originHedgeDelayMs : Option ℚ
  deadlineSlackMs : Option ℚ
deriving DecidableEq

/-- A scheduler's decision for how to fetch one segment. -/
structure SegmentSchedulingPlan where
  policy : String
  mode : SchedulingMode
  peerIds : List PeerId
  rankedPeers : List RankedPeer
  reason : SchedulingReason
  execution : Option SegmentExecutionHints
deriving DecidableEq

/-- The plan every scheduler makes that sends a segment to the origin without hints. -/
def originPlan (policy : String) (reason : SchedulingReason) : SegmentSchedulingPlan :=
  ⟨policy, .origin, [], [], reason, none⟩

def originFallbackPlan (policy : String) : SegmentSchedulingPlan :=
  originPlan policy .originFallback

/-! ### Plans as plain data -/

def exactNumber (value : ℚ) : JsValue := .number (.finite value)

def RankedPeer.toJs (ranked : RankedPeer) : JsValue :=
  .ofFields [("peerId", some (.string ranked.peerId)), ("score", ranked.score.map exactNumber),
    ("rank", some (exactNumber ranked.rank)),
    ("reasons", some (.array (ranked.reasons.map .string)))]

def SegmentExecutionHints.toJs (hints : SegmentExecutionHints) : JsValue :=
  .ofFields [("strategy", some (.string hints.strategy.text)),
    ("peerAttemptBudgetMs", hints.peerAttemptBudgetMs.map exactNumber),
    ("originHedgeDelayMs", hints.originHedgeDelayMs.map exactNumber),
    ("deadlineSlackMs", hints.deadlineSlackMs.map exactNumber)]

def SegmentSchedulingPlan.toJs (plan : SegmentSchedulingPlan) : JsValue :=
  .ofFields [("policy", some (.string plan.policy)), ("mode", some (.string plan.mode.text)),
    ("peerIds", some (.array (plan.peerIds.map .string))),
    ("rankedPeers", some (.array (plan.rankedPeers.map RankedPeer.toJs))),
    ("reason", some (.string plan.reason.text)),
    ("execution", plan.execution.map SegmentExecutionHints.toJs)]

/-- What a scheduler may return: anything that can be looked at as plain data and that a typed
plan can stand in for. -/
class PlanData (π : Type*) where
  toJs : π → JsValue
  ofPlan : SegmentSchedulingPlan → π
  toJs_ofPlan : ∀ plan, toJs (ofPlan plan) = plan.toJs

attribute [simp] PlanData.toJs_ofPlan

instance : PlanData JsValue := ⟨id, SegmentSchedulingPlan.toJs, fun _ => rfl⟩

instance : PlanData SegmentSchedulingPlan :=
  ⟨SegmentSchedulingPlan.toJs, id, fun _ => rfl⟩

/-- Strategy for scheduling a segment fetch. It may keep any state, and planning may throw; what
is thrown is its text. -/
structure SegmentScheduler (σ π : Type*) where
  policyName : σ → String
  planSegment : SegmentSchedulingContext → σ → Except String π × σ

/-! ## Ranking -/

/-- Comparators chained with `||`: the first difference that is not zero. -/
def firstDifference : List ℚ → ℚ
  | [] => 0
  | difference :: rest => if difference = 0 then firstDifference rest else difference

/-- `Array.prototype.sort`, which is stable. -/
def sortBy {α : Type*} (compare : α → α → ℚ) (xs : List α) : List α :=
  xs.insertionSort fun left right => compare left right ≤ 0

@[simp] theorem mem_sortBy {α : Type*} {compare : α → α → ℚ} {xs : List α} {a : α} :
    a ∈ sortBy compare xs ↔ a ∈ xs :=
  List.mem_insertionSort _

/-- Entries numbered in their order, from one. -/
def rankInOrder (reasons : List String) (ranked : List (PeerId × Option ℚ)) : List RankedPeer :=
  (ranked.zipIdx 1).map fun entry => ⟨entry.1.1, entry.1.2, entry.2, reasons⟩

@[simp] theorem length_rankInOrder (reasons : List String) (ranked : List (PeerId × Option ℚ)) :
    (rankInOrder reasons ranked).length = ranked.length := by
  rw [rankInOrder, List.length_map, List.length_zipIdx]

theorem map_rank_rankInOrder (reasons : List String) (ranked : List (PeerId × Option ℚ)) :
    (rankInOrder reasons ranked).map RankedPeer.rank = List.range' 1 ranked.length := by
  rw [rankInOrder, List.map_map]
  exact List.zipIdx_map_snd 1 ranked

theorem peerId_of_mem_rankInOrder {reasons : List String} {ranked : List (PeerId × Option ℚ)}
    {r : RankedPeer} (h : r ∈ rankInOrder reasons ranked) :
    ∃ entry ∈ ranked, r.peerId = entry.1 := by
  obtain ⟨entry, hentry, rfl⟩ := List.mem_map.mp h
  exact ⟨entry.1, List.fst_mem_of_mem_zipIdx hentry, rfl⟩

end OpenStreamGrid
