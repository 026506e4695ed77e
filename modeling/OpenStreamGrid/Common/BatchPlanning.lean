import OpenStreamGrid.Common.SchedulerPlans
import OpenStreamGrid.Lib.Slices

/-!
# Batch planning

`planBatch` plans a playlist's segments in waves, latest first, and asks the
scheduler for each with the peers of the wave that are still free. Whatever the
scheduler answers, the plan is safe to execute: the planner's waves are the ones
the fetcher cuts the assignments into, and no peer works twice in a wave.
-/

namespace OpenStreamGrid

structure BatchSegmentRequest where
  segmentId : SegmentId
  segmentsAhead : Option JsNumber
deriving DecidableEq

/-- Deadlines derived from a segment's distance to playback. -/
structure BatchSyntheticDeadlineConfig where
  segmentDurationMs : JsNumber
deriving DecidableEq

structure BatchAssignment where
  segmentId : SegmentId
  peerId : Option PeerId
  mode : SchedulingMode
deriving DecidableEq

structure BatchWarning where
  segmentId : SegmentId
  code : SchedulerPlanFailureCode
  message : String
deriving DecidableEq

structure BatchPlanningResult where
  assignments : List BatchAssignment
  warnings : List BatchWarning
deriving DecidableEq

/-- One request for each segment, the last made, later playlist entries first. -/
def prioritizedRequests (requests : List BatchSegmentRequest) : List BatchSegmentRequest :=
  (requests.foldl (fun byId request => byId.set request.segmentId request)
    (∅ : OrderedMap SegmentId BatchSegmentRequest)).values.reverse

/-- The deadline `kind: "synthetic"` of a segment so many segments ahead. -/
def syntheticDeadline (segmentsAhead segmentDurationMs : JsNumber) : SegmentDeadline :=
  ⟨"synthetic", segmentsAhead.mul segmentDurationMs, some segmentDurationMs, none⟩

/-- The peer a plan is executed with: its first, unless it goes to the origin. -/
def plannedPeer (plan : JsValue) : Option PeerId :=
  if (plan.get "mode").isText "origin" then none
  else ((plan.get "peerIds").array?.getD []).head?.bind JsValue.string?

section PlanBatch

variable {σ π : Type*} [PlanData π] (scheduler : SegmentScheduler σ π)
  (candidates : List SchedulingPeer) (selfPeerId : PeerId) (maximumParallelism : ℕ)
  (deadlineConfig : Option BatchSyntheticDeadlineConfig)

/-- What the scheduler is asked for one request of a wave: the peers assigned before in the wave
are no candidates any more. -/
def batchContext (assignedPeerIds : OrderedSet PeerId) (request : BatchSegmentRequest) :
    SegmentSchedulingContext where
  segmentId := request.segmentId
  segmentsAhead := request.segmentsAhead
  deadline := do
    let config ← deadlineConfig
    let segmentsAhead ← request.segmentsAhead
    return syntheticDeadline segmentsAhead config.segmentDurationMs
  candidates := candidates.filter fun candidate => candidate.id ∉ assignedPeerIds
  selfPeerId := selfPeerId
  maximumParallelism := maximumParallelism

def planRequest (assignedPeerIds : OrderedSet PeerId) (request : BatchSegmentRequest) (s : σ) :
    (BatchAssignment × List BatchWarning) × σ :=
  let ((plan, warnings), s') := planSegmentSafely scheduler
    (batchContext candidates selfPeerId maximumParallelism deadlineConfig assignedPeerIds request) s
  let segmentWarnings := warnings.map fun warning =>
    ⟨request.segmentId, warning.code, warning.message⟩
  match plannedPeer (PlanData.toJs plan) with
  | none => ((⟨request.segmentId, none, .origin⟩, segmentWarnings), s')
  | some peerId => ((⟨request.segmentId, some peerId, .singlePeer⟩, segmentWarnings), s')

def planWave : List BatchSegmentRequest → OrderedSet PeerId → σ → BatchPlanningResult × σ
  | [], _, s => (⟨[], []⟩, s)
  | request :: wave, assignedPeerIds, s =>
      let ((assignment, segmentWarnings), s') := planRequest scheduler candidates selfPeerId
        maximumParallelism deadlineConfig assignedPeerIds request s
      let (following, s'') := planWave wave
        (assignedPeerIds.insertAll assignment.peerId.toList) s'
      (⟨assignment :: following.assignments, segmentWarnings ++ following.warnings⟩, s'')

def planWaves : List (List BatchSegmentRequest) → σ → BatchPlanningResult × σ
  | [], s => (⟨[], []⟩, s)
  | wave :: waves, s =>
      let (planned, s') := planWave scheduler candidates selfPeerId maximumParallelism
        deadlineConfig wave ∅ s
      let (following, s'') := planWaves waves s'
      (⟨planned.assignments ++ following.assignments, planned.warnings ++ following.warnings⟩, s'')

end PlanBatch

/-- Plans playlist work in bounded waves while keeping peer assignments distinct within each
wave. -/
def planBatch {σ π : Type*} [PlanData π] (scheduler : SegmentScheduler σ π)
    (requests : List BatchSegmentRequest) (candidates : List SchedulingPeer) (selfPeerId : PeerId)
    (maximumParallelism : JsNumber) (deadlineConfig : Option BatchSyntheticDeadlineConfig)
    (s : σ) : Except String (BatchPlanningResult × σ) :=
  match maximumParallelism.safeInteger? with
  | some maximumParallelism =>
      if maximumParallelism ≤ 0 then .error "maximumParallelism must be a positive integer"
      else .ok (planWaves scheduler candidates selfPeerId maximumParallelism.toNat deadlineConfig
        (slices maximumParallelism.toNat (prioritizedRequests requests)) s)
  | none => .error "maximumParallelism must be a positive integer"

/-- The waves `fetchSegments` executes: it starts each when the one before has settled. -/
def executionWaves (maxParallel : ℕ) (assignments : List BatchAssignment) :
    List (List BatchAssignment) :=
  slices maxParallel assignments

/-! ## The requests that are planned -/

theorem segmentId_of_prioritized (requests : List BatchSegmentRequest) :
    ∀ id request, (requests.foldl (fun byId request => byId.set request.segmentId request)
      (∅ : OrderedMap SegmentId BatchSegmentRequest)).get? id = some request →
      request.segmentId = id := by
  induction requests using List.reverseRecOn with
  | nil =>
      intro id request h
      cases h
  | append_singleton requests last ih =>
      intro id request h
      rw [List.foldl_append, List.foldl_cons, List.foldl_nil, OrderedMap.get?_set] at h
      split_ifs at h with hid
      · obtain rfl := Option.some.inj h
        exact hid.symm
      · exact ih id request h

theorem mem_byId_iff (requests : List BatchSegmentRequest) (id : SegmentId) :
    id ∈ requests.foldl (fun byId request => byId.set request.segmentId request)
      (∅ : OrderedMap SegmentId BatchSegmentRequest) ↔
      ∃ request ∈ requests, request.segmentId = id := by
  induction requests using List.reverseRecOn with
  | nil => simp
  | append_singleton requests last ih =>
      rw [List.foldl_append, List.foldl_cons, List.foldl_nil, OrderedMap.mem_set, ih]
      constructor
      · rintro (⟨request, hmem, hid⟩ | rfl)
        · exact ⟨request, List.mem_append_left _ hmem, hid⟩
        · exact ⟨last, by simp, rfl⟩
      · rintro ⟨request, hmem, hid⟩
        rcases List.mem_append.mp hmem with hmem | hlast
        · exact Or.inl ⟨request, hmem, hid⟩
        · rw [List.mem_singleton.mp hlast] at hid
          exact Or.inr hid.symm

/-- The segments of the planned requests are the keys of the map, last to first. -/
theorem map_segmentId_prioritizedRequests (requests : List BatchSegmentRequest) :
    (prioritizedRequests requests).map BatchSegmentRequest.segmentId =
      (requests.foldl (fun byId request => byId.set request.segmentId request)
        (∅ : OrderedMap SegmentId BatchSegmentRequest)).keys.reverse := by
  have hkeys := segmentId_of_prioritized requests
  unfold prioritizedRequests
  generalize requests.foldl (fun byId request => byId.set request.segmentId request)
    (∅ : OrderedMap SegmentId BatchSegmentRequest) = byId at hkeys ⊢
  rw [List.map_reverse, OrderedMap.values, OrderedMap.keys, List.map_map]
  congr 1
  refine List.map_congr_left fun entry hentry => ?_
  exact hkeys entry.1 entry.2 (OrderedMap.get?_eq_some_iff.mpr hentry)

theorem nodup_prioritizedRequests (requests : List BatchSegmentRequest) :
    ((prioritizedRequests requests).map BatchSegmentRequest.segmentId).Nodup := by
  rw [map_segmentId_prioritizedRequests, List.nodup_reverse]
  exact OrderedMap.nodupKeys _

theorem mem_prioritizedRequests {requests : List BatchSegmentRequest} {id : SegmentId} :
    id ∈ (prioritizedRequests requests).map BatchSegmentRequest.segmentId ↔
      ∃ request ∈ requests, request.segmentId = id := by
  rw [map_segmentId_prioritizedRequests, List.mem_reverse, ← OrderedMap.mem_iff_mem_keys,
    mem_byId_iff]

/-! ## One assignment -/

/-- Leaving out every candidate of some identifiers leaves the others as they were. -/
theorem candidatesById_filter (keep : PeerId → Bool) (candidates : List SchedulingPeer)
    (p : PeerId) :
    (candidatesById (candidates.filter fun candidate => keep candidate.id)).get? p =
      if keep p then (candidatesById candidates).get? p else none := by
  induction candidates using List.reverseRecOn with
  | nil => cases keep p <;> rfl
  | append_singleton rest last ih =>
      rw [List.filter_append, candidatesById_concat, OrderedMap.get?_set]
      by_cases hlast : keep last.id = true
      · have hfilter : [last].filter (fun candidate => keep candidate.id) = [last] :=
          List.filter_cons_of_pos hlast
        rw [hfilter, candidatesById_concat, OrderedMap.get?_set, ih]
        split_ifs with hp hkeep hkeep
        · rfl
        · rw [hp] at hkeep
          exact absurd hlast hkeep
        · rfl
        · rfl
      · have hfilter : [last].filter (fun candidate => keep candidate.id) = [] :=
          List.filter_cons_of_neg hlast
        rw [hfilter, List.append_nil, ih]
        split_ifs with hkeep hp
        · rw [hp] at hkeep
          exact absurd hkeep hlast
        · rfl
        · rfl

/-- A peer that may be given a segment: the candidate of that identifier is not the local peer
and advertises the segment, if it has a name. -/
def MayServe (candidates : List SchedulingPeer) (selfPeerId : PeerId) (segmentId : SegmentId)
    (p : PeerId) : Prop :=
  ∃ candidate ∈ candidates, (candidatesById candidates).get? p = some candidate ∧
    candidate.id = p ∧ p ≠ selfPeerId ∧
    (segmentId ≠ "" → segmentId ∈ candidate.segments)

section PlanBatch

variable {σ π : Type*} [PlanData π] (scheduler : SegmentScheduler σ π)
  (candidates : List SchedulingPeer) (selfPeerId : PeerId) (maximumParallelism : ℕ)
  (deadlineConfig : Option BatchSyntheticDeadlineConfig)

/-- The peer of an accepted plan is one of those it selects. -/
theorem plannedPeer_of_accepted {plan : JsValue} {policyName : String}
    {context : SegmentSchedulingContext} {mode : SchedulingMode} {peerIds : List PeerId}
    {rankedPeers : List JsValue} {p : PeerId}
    (haccepted : PlanAccepted plan policyName context mode peerIds rankedPeers)
    (hp : plannedPeer plan = some p) : context.Selectable p := by
  apply haccepted.selectable
  unfold plannedPeer at hp
  split_ifs at hp
  rw [haccepted.peerIds_eq] at hp
  cases peerIds with
  | nil => cases hp
  | cons first rest =>
      obtain rfl := Option.some.inj hp
      exact List.mem_cons_self

@[simp] theorem plannedPeer_originFallbackPlan (policyName : String) :
    plannedPeer (originFallbackPlan policyName).toJs = none := rfl

/-- What one request is assigned: its own segment, and a peer that may serve it and is free. -/
theorem planRequest_spec (assignedPeerIds : OrderedSet PeerId) (request : BatchSegmentRequest)
    (s : σ) :
    (planRequest scheduler candidates selfPeerId maximumParallelism deadlineConfig
      assignedPeerIds request s).1.1.segmentId = request.segmentId ∧
    ∀ p, (planRequest scheduler candidates selfPeerId maximumParallelism deadlineConfig
      assignedPeerIds request s).1.1.peerId = some p →
      p ∉ assignedPeerIds ∧ MayServe candidates selfPeerId request.segmentId p := by
  unfold planRequest
  have hplan := planSegmentSafely_plan scheduler
    (batchContext candidates selfPeerId maximumParallelism deadlineConfig assignedPeerIds request) s
  generalize planSegmentSafely scheduler (batchContext candidates selfPeerId maximumParallelism
    deadlineConfig assignedPeerIds request) s = planned at hplan ⊢
  obtain ⟨⟨plan, warnings⟩, s'⟩ := planned
  dsimp only at hplan ⊢
  cases hpeer : plannedPeer (PlanData.toJs plan) with
  | none =>
      refine ⟨rfl, fun p hp => ?_⟩
      cases hp
  | some peerId =>
      refine ⟨rfl, fun p hp => ?_⟩
      obtain rfl := Option.some.inj hp
      rcases hplan with ⟨policyName, mode, peerIds, rankedPeers, haccepted⟩ | ⟨policyName, hfallback⟩
      · obtain ⟨candidate, hget, hself, hsegment⟩ := plannedPeer_of_accepted haccepted hpeer
        have hfilter := candidatesById_filter (fun id => decide (id ∉ assignedPeerIds))
          candidates peerId
        rw [show (candidatesById (candidates.filter fun candidate =>
          decide (candidate.id ∉ assignedPeerIds))).get? peerId = some candidate from hget]
          at hfilter
        split_ifs at hfilter with hfree
        obtain ⟨hmem, hid⟩ := mem_of_candidatesById hfilter.symm
        exact ⟨of_decide_eq_true hfree, candidate, hmem, hfilter.symm, hid, hself, hsegment⟩
      · rw [hfallback, plannedPeer_originFallbackPlan] at hpeer
        cases hpeer

/-! ## Waves -/

theorem planWave_cons (request : BatchSegmentRequest) (wave : List BatchSegmentRequest)
    (assignedPeerIds : OrderedSet PeerId) (s : σ) :
    (planWave scheduler candidates selfPeerId maximumParallelism deadlineConfig (request :: wave)
      assignedPeerIds s).1.assignments =
    (planRequest scheduler candidates selfPeerId maximumParallelism deadlineConfig
      assignedPeerIds request s).1.1 ::
      (planWave scheduler candidates selfPeerId maximumParallelism deadlineConfig wave
        (assignedPeerIds.insertAll (planRequest scheduler candidates selfPeerId
          maximumParallelism deadlineConfig assignedPeerIds request s).1.1.peerId.toList)
        (planRequest scheduler candidates selfPeerId maximumParallelism deadlineConfig
          assignedPeerIds request s).2).1.assignments := rfl

theorem planWave_segmentIds (wave : List BatchSegmentRequest) :
    ∀ (assignedPeerIds : OrderedSet PeerId) (s : σ),
    (planWave scheduler candidates selfPeerId maximumParallelism deadlineConfig wave
      assignedPeerIds s).1.assignments.map BatchAssignment.segmentId =
      wave.map BatchSegmentRequest.segmentId := by
  induction wave with
  | nil => intro assignedPeerIds s; rfl
  | cons request wave ih =>
      intro assignedPeerIds s
      rw [planWave_cons, List.map_cons, List.map_cons, (planRequest_spec scheduler candidates
        selfPeerId maximumParallelism deadlineConfig assignedPeerIds request s).1, ih]

/-- Every peer a wave assigns may serve its segment. -/
theorem planWave_mayServe (wave : List BatchSegmentRequest) :
    ∀ (assignedPeerIds : OrderedSet PeerId) (s : σ),
    ∀ assignment ∈ (planWave scheduler candidates selfPeerId maximumParallelism deadlineConfig
      wave assignedPeerIds s).1.assignments, ∀ p, assignment.peerId = some p →
      MayServe candidates selfPeerId assignment.segmentId p := by
  induction wave with
  | nil =>
      intro assignedPeerIds s assignment hmem
      cases hmem
  | cons request wave ih =>
      intro assignedPeerIds s assignment hmem p hp
      obtain ⟨hid, hserve⟩ := planRequest_spec scheduler candidates selfPeerId
        maximumParallelism deadlineConfig assignedPeerIds request s
      rw [planWave_cons] at hmem
      rcases List.mem_cons.mp hmem with rfl | hmem
      · rw [hid]
        exact (hserve p hp).2
      · exact ih _ _ assignment hmem p hp

/-- No peer is assigned twice in a wave, nor one that was assigned before. -/
theorem planWave_distinct (wave : List BatchSegmentRequest) :
    ∀ (assignedPeerIds : OrderedSet PeerId) (s : σ),
    ((planWave scheduler candidates selfPeerId maximumParallelism deadlineConfig wave
      assignedPeerIds s).1.assignments.filterMap BatchAssignment.peerId).Nodup ∧
    ∀ p ∈ (planWave scheduler candidates selfPeerId maximumParallelism deadlineConfig wave
      assignedPeerIds s).1.assignments.filterMap BatchAssignment.peerId, p ∉ assignedPeerIds := by
  induction wave with
  | nil =>
      intro assignedPeerIds s
      exact ⟨List.nodup_nil, fun p hp => absurd hp List.not_mem_nil⟩
  | cons request wave ih =>
      intro assignedPeerIds s
      have hspec := (planRequest_spec scheduler candidates selfPeerId maximumParallelism
        deadlineConfig assignedPeerIds request s).2
      rw [planWave_cons]
      generalize planRequest scheduler candidates selfPeerId maximumParallelism deadlineConfig
        assignedPeerIds request s = planned at hspec ⊢
      obtain ⟨⟨assignment, segmentWarnings⟩, s'⟩ := planned
      dsimp only at hspec ⊢
      obtain ⟨hnodup, hnew⟩ := ih (assignedPeerIds.insertAll assignment.peerId.toList) s'
      cases hpeer : assignment.peerId with
      | none =>
          rw [hpeer] at hnodup hnew
          rw [List.filterMap_cons_none hpeer]
          exact ⟨hnodup, hnew⟩
      | some peerId =>
          rw [hpeer] at hnodup hnew
          rw [List.filterMap_cons_some hpeer]
          have hafter : ∀ p ∈ _, p ∉ assignedPeerIds ∧ p ≠ peerId := fun p hp => by
            have hp := hnew p hp
            rw [OrderedSet.mem_insertAll, not_or] at hp
            exact ⟨hp.1, fun heq => hp.2 (by simp [heq])⟩
          refine ⟨List.nodup_cons.mpr ⟨fun hmem => (hafter peerId hmem).2 rfl, hnodup⟩, ?_⟩
          intro p hp
          rcases List.mem_cons.mp hp with rfl | hp
          · exact (hspec p hpeer).1
          · exact (hafter p hp).1

/-- The assignments of a batch, piece by piece: each piece is a run of one wave. -/
theorem planWaves_pieces (waves : List (List BatchSegmentRequest)) : ∀ s : σ,
    ∃ pieces : List (List BatchAssignment),
      (planWaves scheduler candidates selfPeerId maximumParallelism deadlineConfig waves
        s).1.assignments = pieces.flatten ∧
      pieces.map (List.map BatchAssignment.segmentId) =
        waves.map (List.map BatchSegmentRequest.segmentId) ∧
      ∀ piece ∈ pieces, ∃ wave s', piece = (planWave scheduler candidates selfPeerId
        maximumParallelism deadlineConfig wave ∅ s').1.assignments := by
  induction waves with
  | nil => exact fun s => ⟨[], rfl, rfl, fun piece hpiece => absurd hpiece List.not_mem_nil⟩
  | cons wave waves ih =>
      intro s
      obtain ⟨pieces, hflat, hids, hpieces⟩ := ih (planWave scheduler candidates selfPeerId
        maximumParallelism deadlineConfig wave ∅ s).2
      refine ⟨(planWave scheduler candidates selfPeerId maximumParallelism deadlineConfig wave ∅
        s).1.assignments :: pieces, ?_, ?_, ?_⟩
      · rw [List.flatten_cons, ← hflat]
        rfl
      · rw [List.map_cons, List.map_cons, hids, planWave_segmentIds]
      · intro piece hmem
        rcases List.mem_cons.mp hmem with rfl | hmem
        · exact ⟨wave, s, rfl⟩
        · exact hpieces piece hmem

end PlanBatch

/-! ## The batch -/

/-- A batch that is safe to execute in waves of `maximumParallelism`. -/
structure SafeBatch (requests : List BatchSegmentRequest) (candidates : List SchedulingPeer)
    (selfPeerId : PeerId) (maximumParallelism : ℕ) (assignments : List BatchAssignment) :
    Prop where
  /-- Each segment has one assignment -/
  once : (assignments.map BatchAssignment.segmentId).Nodup
  /-- and no other has any. -/
  segments : ∀ id, id ∈ assignments.map BatchAssignment.segmentId ↔
    ∃ request ∈ requests, request.segmentId = id
  peers : ∀ assignment ∈ assignments, ∀ p, assignment.peerId = some p →
    MayServe candidates selfPeerId assignment.segmentId p
  distinct : ∀ wave ∈ executionWaves maximumParallelism assignments,
    (wave.filterMap BatchAssignment.peerId).Nodup

/-- **Whatever the scheduler does, the batch is safe to execute.** -/
theorem planBatch_safe {σ π : Type*} [PlanData π] (scheduler : SegmentScheduler σ π)
    (requests : List BatchSegmentRequest) (candidates : List SchedulingPeer) (selfPeerId : PeerId)
    {maximumParallelism : ℕ} (hpos : 0 < maximumParallelism)
    (hsafe : maximumParallelism ≤ maxSafeInteger)
    (deadlineConfig : Option BatchSyntheticDeadlineConfig) (s : σ) :
    ∃ result s', planBatch scheduler requests candidates selfPeerId
        (.finite maximumParallelism) deadlineConfig s = .ok (result, s') ∧
      SafeBatch requests candidates selfPeerId maximumParallelism result.assignments := by
  have hbatch : planBatch scheduler requests candidates selfPeerId (.finite maximumParallelism)
      deadlineConfig s = .ok (planWaves scheduler candidates selfPeerId maximumParallelism
        deadlineConfig (slices maximumParallelism (prioritizedRequests requests)) s) := by
    unfold planBatch
    rw [JsNumber.safeInteger?_natCast hsafe]
    dsimp only
    rw [if_neg (by omega), Int.toNat_natCast]
  obtain ⟨pieces, hflat, hwaves, hpieces⟩ := planWaves_pieces scheduler candidates selfPeerId
    maximumParallelism deadlineConfig (slices maximumParallelism (prioritizedRequests requests)) s
  refine ⟨_, _, hbatch, ?_⟩
  rw [hflat]
  have hids : pieces.flatten.map BatchAssignment.segmentId =
      (prioritizedRequests requests).map BatchSegmentRequest.segmentId := by
    rw [List.map_flatten, hwaves, ← List.map_flatten, flatten_slices hpos]
  have hslices : executionWaves maximumParallelism pieces.flatten = pieces := by
    apply slices_flatten hpos
    have hlens := congrArg (List.map List.length) hwaves
    rw [List.map_map, List.map_map] at hlens
    simpa [Function.comp_def] using hlens
  refine ⟨?_, ?_, ?_, ?_⟩
  · rw [hids]
    exact nodup_prioritizedRequests requests
  · intro id
    rw [hids]
    exact mem_prioritizedRequests
  · intro assignment hmem p hp
    obtain ⟨piece, hpmem, hmem⟩ := List.mem_flatten.mp hmem
    obtain ⟨wave, s', rfl⟩ := hpieces piece hpmem
    exact planWave_mayServe scheduler candidates selfPeerId maximumParallelism deadlineConfig
      wave ∅ s' assignment hmem p hp
  · intro wave hmem
    rw [hslices] at hmem
    obtain ⟨requests, s', rfl⟩ := hpieces wave hmem
    exact (planWave_distinct scheduler candidates selfPeerId maximumParallelism deadlineConfig
      requests ∅ s').1

/-- A scheduler that counts its calls. It plans the first candidate, but of four calls the third
throws and the fourth returns an array. -/
def countingScheduler : SegmentScheduler ℕ JsValue where
  policyName _ := "counting"
  planSegment context calls :=
    (if calls % 4 = 2 then .error "no plan today"
      else if calls % 4 = 3 then .ok (.array [])
      else .ok (SegmentSchedulingPlan.toJs ⟨"counting", .singlePeer,
        (context.candidates.map SchedulingPeer.id).take 1, [], .peerSelected, none⟩),
      calls + 1)

def advertising (id : PeerId) (segments : List SegmentId) : SchedulingPeer :=
  ⟨id, 40, 1, 1000, 1, segments, none⟩

def repeatedRequests : List BatchSegmentRequest := ["a", "b", "a", "c", "d", "e"].map (⟨·, none⟩)

def twoCandidates : List SchedulingPeer :=
  ["p", "q"].map (advertising · ["a", "b", "c", "d", "e"])

theorem planBatch_safe_countingScheduler :
    ∃ result s', planBatch countingScheduler repeatedRequests twoCandidates "self"
        (.finite (2 : ℕ)) none 0 = .ok (result, s') ∧
      SafeBatch repeatedRequests twoCandidates "self" 2 result.assignments :=
  planBatch_safe countingScheduler repeatedRequests twoCandidates "self" (by decide) (by decide)
    none 0

/-- Two peers in the first wave, the two failing calls in the second. -/
example : ((planBatch countingScheduler repeatedRequests twoCandidates "self" (.finite 2) none
    0).toOption.map fun planned => planned.1.assignments.map fun assignment =>
      (assignment.segmentId, assignment.peerId)) =
    some [("e", some "p"), ("d", some "q"), ("c", none), ("b", none), ("a", some "p")] := by
  decide +kernel

end OpenStreamGrid
