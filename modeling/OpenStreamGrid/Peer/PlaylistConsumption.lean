import OpenStreamGrid.Common.BatchPlanning
import OpenStreamGrid.Lib.TransitionSystem
import OpenStreamGrid.Peer.WeightedScoreScheduler

/-!
# Consuming the playlist

`consumePlaylist` of the Node peer. Each poll of the playlist leaves segments to
fetch; they are fetched in batches, and a batch fails as one: its failure counts
against every member. A segment with `MAX_SEGMENT_ATTEMPTS` failures is given up.

A run blames each segment for its own failed fetches if and only if, in each of
its batches, a failed fetch comes with failed fetches of all other members and no
member is listed twice.
-/

namespace OpenStreamGrid

def MINIMUM_P2P_SEGMENTS_AHEAD : ℕ := 2

def MAX_SEGMENT_ATTEMPTS : ℕ := 3

/-! ## Failed attempts -/

/-- The failures of each segment so far. -/
abbrev SegmentAttempts : Type := OrderedMap SegmentId ℕ

namespace SegmentAttempts

/-- Records a failure; true when the segment has now used every attempt. -/
def fail (attempts : SegmentAttempts) (segmentName : SegmentId) : Bool × SegmentAttempts :=
  let failures := (attempts.get? segmentName).getD 0 + 1
  (decide (MAX_SEGMENT_ATTEMPTS ≤ failures), attempts.set segmentName failures)

def succeed (attempts : SegmentAttempts) (segmentName : SegmentId) : SegmentAttempts :=
  attempts.delete segmentName

/-- Forgets segments the playlist no longer lists. -/
def retain (attempts : SegmentAttempts) (current : OrderedSet SegmentId) : SegmentAttempts :=
  (attempts.keys.filter (· ∉ current)).foldl OrderedMap.delete attempts

end SegmentAttempts

/-! ## A batch -/

structure PendingSegment where
  segmentName : SegmentId
  segmentsAhead : ℕ
deriving DecidableEq

/-- What the fetch of each segment comes to: its bytes or the text of its error. -/
abbrev FetchOutcomes : Type := SegmentId → Except String (List UInt8)

/-- The client's configuration, as far as batches need it. -/
structure ConsumerOptions (σ π : Type*) where
  scheduler : SegmentScheduler σ π
  selfPeerId : PeerId
  maxParallelDownloads : {n : ℕ // 0 < n ∧ n ≤ maxSafeInteger}
  deadlineConfig : Option BatchSyntheticDeadlineConfig

/-- How a batch under way is fetched. -/
inductive BatchTasks where
  /-- One `fetchSegment` for each member. -/
  | single
  /-- `fetchSegments` with these assignments, or with what the planner has thrown. -/
  | planned (assignments : Except String (List BatchAssignment))

/-- A batch after its end, with the segments counted as failed and the segments given up. -/
structure SettledBatch where
  members : List SegmentId
  /-- The members whose own fetch failed. -/
  failed : List SegmentId
  counted : List SegmentId
  skipped : List SegmentId
deriving DecidableEq

structure PlaylistConsumer where
  processed : OrderedSet SegmentId
  attempts : SegmentAttempts
  inFlightSegments : OrderedSet SegmentId
  /-- What the current poll has still to fetch. -/
  pending : List PendingSegment
  batch : Option (List PendingSegment × BatchTasks)
  aborted : Bool
  settled : List SettledBatch

inductive ConsumerEvent (σ : Type*) where
  /-- The playlist arrives with these media segments. -/
  | playlist (segments : List SegmentId)
  /-- The next batch starts, with the peers and the scheduler as they are then. -/
  | fetchBatch (candidates : List SchedulingPeer) (s : σ)
  | settles (outcome : FetchOutcomes)
  | abort

namespace PlaylistConsumer

def new : PlaylistConsumer := ⟨∅, ∅, ∅, [], none, false, []⟩

/-- The segments still to fetch, the oldest first. -/
def pendingSegments (s : PlaylistConsumer) (segments : List SegmentId) : List PendingSegment :=
  (segments.zipIdx.map fun (segmentName, index) =>
      (⟨segmentName, segments.length - index - 1⟩ : PendingSegment)).filter
    fun item => item.segmentName ∉ s.processed ∧ item.segmentName ∉ s.inFlightSegments

def onPlaylist (s : PlaylistConsumer) (segments : List SegmentId) : PlaylistConsumer :=
  let current := OrderedSet.ofList segments
  let s := { s with
    processed := s.processed.eraseAll (s.processed.toList.filter (· ∉ current))
    attempts := s.attempts.retain current }
  { s with pending := s.pendingSegments segments }

def isUrgent (item : PendingSegment) : Bool := item.segmentsAhead < MINIMUM_P2P_SEGMENTS_AHEAD

/-- Segments for which there is time; an urgent one is fetched alone when there are none. -/
def nextBatch (maxParallelDownloads : ℕ) (pending : List PendingSegment) : List PendingSegment :=
  let nonUrgent := pending.filter fun item => !isUrgent item
  (if nonUrgent ≠ [] then nonUrgent else pending.take 1).take maxParallelDownloads

def batchRequests (batch : List PendingSegment) : List BatchSegmentRequest :=
  batch.map fun item => ⟨item.segmentName, some (.finite item.segmentsAhead)⟩

section Fetching

variable {σ π : Type*} [PlanData π] (options : ConsumerOptions σ π)

def startBatch (s : PlaylistConsumer) (candidates : List SchedulingPeer) (scheduler : σ) :
    PlaylistConsumer :=
  let batch := nextBatch options.maxParallelDownloads s.pending
  let tasks :=
    if batch.any isUrgent then .single
    else .planned ((planBatch options.scheduler (batchRequests batch) candidates
      options.selfPeerId (.finite options.maxParallelDownloads.val) options.deadlineConfig
      scheduler).map fun planned => planned.1.assignments)
  { s with
    inFlightSegments := s.inFlightSegments.insertAll (batch.map PendingSegment.segmentName)
    batch := some (batch, tasks) }

end Fetching

/-! ### The end of a batch -/

/-- All of the tasks, or the first error. -/
def fetchEach (outcome : FetchOutcomes) :
    List SegmentId → Except String (List (SegmentId × List UInt8))
  | [] => .ok []
  | segmentName :: rest =>
      (outcome segmentName).bind fun data =>
        (fetchEach outcome rest).map fun fetched => (segmentName, data) :: fetched

def settleTask (outcome : FetchOutcomes)
    (settled : OrderedMap SegmentId (List UInt8) × List String) (assignment : BatchAssignment) :
    OrderedMap SegmentId (List UInt8) × List String :=
  match outcome assignment.segmentId with
  | .ok data => (settled.1.set assignment.segmentId data, settled.2)
  | .error reason => (settled.1, settled.2 ++ [reason])

/-- The waves of `fetchSegments` settle one after the other; one failed task is enough to throw. -/
def fetchSegments (maxParallel : ℕ) (outcome : FetchOutcomes) (assignments : List BatchAssignment) :
    Except String (OrderedMap SegmentId (List UInt8)) :=
  let settled := (executionWaves maxParallel assignments).foldl
    (fun settled wave => wave.foldl (settleTask outcome) settled) (∅, [])
  if settled.2 = [] then .ok settled.1
  else .error "One or more segments could not be fetched"

/-- What a batch comes to. -/
def fetchResult (maxParallel : ℕ) (outcome : FetchOutcomes) (batch : List PendingSegment) :
    BatchTasks → Except String (OrderedMap SegmentId (List UInt8))
  | .single => (fetchEach outcome (batch.map PendingSegment.segmentName)).map fun fetched =>
      fetched.foldl (fun map entry => map.set entry.1 entry.2) ∅
  | .planned assignments => assignments.bind (fetchSegments maxParallel outcome)

/-- The loop over a failed batch: a failure is counted against each member, and a member without
attempts left is given up. -/
def countFailures (s : PlaylistConsumer) : List SegmentId → PlaylistConsumer × List SegmentId
  | [] => (s, [])
  | segmentName :: rest =>
      let (exhausted, attempts) := s.attempts.fail segmentName
      let s := { s with attempts := attempts }
      if exhausted then
        let (s, skipped) := countFailures { s with processed := s.processed.insert segmentName } rest
        (s, segmentName :: skipped)
      else countFailures s rest

def markFetched (s : PlaylistConsumer) (segmentName : SegmentId) : PlaylistConsumer :=
  { s with
    processed := s.processed.insert segmentName
    attempts := s.attempts.succeed segmentName }

def hasFailed (outcome : FetchOutcomes) (segmentName : SegmentId) : Bool :=
  match outcome segmentName with
  | .ok _ => false
  | .error _ => true

/-- The rest of `fetchBatch`, and the members leave the list of those to fetch. -/
def settleBatch (maxParallel : ℕ) (s : PlaylistConsumer) (outcome : FetchOutcomes)
    (batch : List PendingSegment) (tasks : BatchTasks) : PlaylistConsumer :=
  let members := batch.map PendingSegment.segmentName
  let failed := members.filter (hasFailed outcome)
  let (s, counted, skipped) :=
    match fetchResult maxParallel outcome batch tasks with
    -- The error does not tell whose fetch has failed.
    | .error _ =>
        let (s, skipped) := s.countFailures members
        (s, members, skipped)
    | .ok fetched => (fetched.keys.foldl markFetched s, [], [])
  { s with
    inFlightSegments := s.inFlightSegments.eraseAll members
    pending := s.pending.filter fun item => item.segmentName ∉ members
    batch := none
    settled := s.settled ++ [⟨members, failed, counted, skipped⟩] }

variable {σ π : Type*} [PlanData π] (options : ConsumerOptions σ π)

def step (s : PlaylistConsumer) : ConsumerEvent σ → Option PlaylistConsumer
  | .playlist segments =>
      if s.aborted ∨ s.batch.isSome ∨ (s.pending ≠ []) then none else some (s.onPlaylist segments)
  | .fetchBatch candidates scheduler =>
      if s.aborted ∨ s.batch.isSome ∨ s.pending = [] then none
      else some (s.startBatch options candidates scheduler)
  | .settles outcome =>
      s.batch.map fun (batch, tasks) =>
        s.settleBatch options.maxParallelDownloads outcome batch tasks
  | .abort => some { s with aborted := true }

def system : TransitionSystem PlaylistConsumer (ConsumerEvent σ) where
  init s := s = new
  step := step options

/-! ## What a batch comes to -/

section Results

variable {outcome : FetchOutcomes}

theorem fetchEach_ok_iff {segmentNames : List SegmentId} :
    (∃ fetched, fetchEach outcome segmentNames = .ok fetched) ↔
      ∀ segmentName ∈ segmentNames, hasFailed outcome segmentName = false := by
  induction segmentNames with
  | nil => exact ⟨fun _ _ hmem => absurd hmem List.not_mem_nil, fun _ => ⟨[], rfl⟩⟩
  | cons segmentName rest ih =>
      rw [List.forall_mem_cons, ← ih]
      simp only [hasFailed, fetchEach]
      cases outcome segmentName with
      | error reason =>
          constructor
          · rintro ⟨_, hok⟩
            cases hok
          · rintro ⟨hok, -⟩
            cases hok
      | ok data =>
          constructor
          · rintro ⟨fetched, hok⟩
            cases hrest : fetchEach outcome rest with
            | error reason =>
                rw [hrest] at hok
                cases hok
            | ok more => exact ⟨rfl, more, rfl⟩
          · rintro ⟨-, more, hrest⟩
            refine ⟨(segmentName, data) :: more, ?_⟩
            rw [hrest]
            rfl

/-- Nothing has failed in the end if nothing had before and no task has. -/
theorem foldl_settleTask_eq_nil_iff {assignments : List BatchAssignment} :
    ∀ {settled : OrderedMap SegmentId (List UInt8) × List String},
      (assignments.foldl (settleTask outcome) settled).2 = [] ↔
        settled.2 = [] ∧ ∀ segmentName ∈ assignments.map BatchAssignment.segmentId,
          hasFailed outcome segmentName = false := by
  induction assignments with
  | nil =>
      intro settled
      exact ⟨fun h => ⟨h, fun _ hmem => absurd hmem List.not_mem_nil⟩, fun h => h.1⟩
  | cons assignment rest ih =>
      intro settled
      rw [List.foldl_cons, ih, List.map_cons, List.forall_mem_cons]
      unfold settleTask hasFailed
      cases outcome assignment.segmentId with
      | ok data => simp
      | error reason => simp

theorem fetchSegments_ok_iff {maxParallel : ℕ} (hpos : 0 < maxParallel)
    {assignments : List BatchAssignment} :
    (∃ fetched, fetchSegments maxParallel outcome assignments = .ok fetched) ↔
      ∀ segmentName ∈ assignments.map BatchAssignment.segmentId,
        hasFailed outcome segmentName = false := by
  have hflat : (executionWaves maxParallel assignments).foldl
      (fun settled wave => wave.foldl (settleTask outcome) settled) (∅, []) =
        assignments.foldl (settleTask outcome) (∅, []) := by
    rw [← List.foldl_flatten]
    exact congrArg _ (flatten_slices hpos assignments)
  unfold fetchSegments
  rw [hflat]
  dsimp only
  constructor
  · rintro ⟨fetched, hok⟩
    split_ifs at hok with hnone
    exact (foldl_settleTask_eq_nil_iff.mp hnone).2
  · intro hall
    rw [if_pos (foldl_settleTask_eq_nil_iff.mpr ⟨rfl, hall⟩)]
    exact ⟨_, rfl⟩

/-- The planned assignments are for the members. -/
def WellPlanned (batch : List PendingSegment) : BatchTasks → Prop
  | .single => True
  | .planned assignments => ∃ planned, assignments = .ok planned ∧
      ∀ segmentName, segmentName ∈ planned.map BatchAssignment.segmentId ↔
        segmentName ∈ batch.map PendingSegment.segmentName

/-- **A batch succeeds if the fetch of every member does.** -/
theorem fetchResult_ok_iff {maxParallel : ℕ} (hpos : 0 < maxParallel)
    {batch : List PendingSegment} {tasks : BatchTasks} (hplanned : WellPlanned batch tasks) :
    (∃ fetched, fetchResult maxParallel outcome batch tasks = .ok fetched) ↔
      ∀ segmentName ∈ batch.map PendingSegment.segmentName,
        hasFailed outcome segmentName = false := by
  cases tasks with
  | single =>
      rw [← fetchEach_ok_iff]
      unfold fetchResult
      cases fetchEach outcome (batch.map PendingSegment.segmentName) with
      | ok fetched => exact ⟨fun _ => ⟨fetched, rfl⟩, fun _ => ⟨_, rfl⟩⟩
      | error reason =>
          constructor
          · rintro ⟨_, hok⟩
            cases hok
          · rintro ⟨_, hok⟩
            cases hok
  | planned assignments =>
      rcases hplanned with ⟨planned, rfl, hsame⟩
      rw [show fetchResult maxParallel outcome batch (.planned (.ok planned)) =
        fetchSegments maxParallel outcome planned from rfl, fetchSegments_ok_iff hpos]
      exact forall_congr' fun segmentName => imp_congr (hsame segmentName) Iff.rfl

end Results

theorem startBatch_wellPlanned (s : PlaylistConsumer) (candidates : List SchedulingPeer)
    (scheduler : σ) : ∀ batch tasks,
      (s.startBatch options candidates scheduler).batch = some (batch, tasks) →
        WellPlanned batch tasks := by
  intro batch tasks hbatch
  unfold startBatch at hbatch
  dsimp only at hbatch
  obtain ⟨rfl, htasks⟩ := Prod.mk.inj (Option.some.inj hbatch)
  split_ifs at htasks with hurgent
  · rw [← htasks]
    trivial
  · rcases planBatch_safe options.scheduler (batchRequests (nextBatch
      options.maxParallelDownloads s.pending)) candidates options.selfPeerId
      options.maxParallelDownloads.2.1 options.maxParallelDownloads.2.2 options.deadlineConfig
      scheduler with ⟨result, scheduler', hplan, hsafe⟩
    rw [hplan] at htasks
    rw [← htasks]
    refine ⟨result.assignments, rfl, fun segmentName => ?_⟩
    rw [hsafe.segments, batchRequests, List.mem_map]
    constructor
    · rintro ⟨request, hrequest, rfl⟩
      rcases List.mem_map.mp hrequest with ⟨item, hitem, rfl⟩
      exact ⟨item, hitem, rfl⟩
    · rintro ⟨item, hitem, rfl⟩
      exact ⟨_, List.mem_map_of_mem hitem, rfl⟩

/-! ## Who is blamed -/

end PlaylistConsumer

namespace SettledBatch

/-- The fetch of one member failed while that of another one succeeded. -/
def Mixed (batch : SettledBatch) : Prop :=
  batch.failed ≠ [] ∧ ∃ segmentName ∈ batch.members, segmentName ∉ batch.failed

/-- All members fail together or none does, and none that fails is listed twice. -/
def FailsAsOne (batch : SettledBatch) : Prop :=
  ¬batch.Mixed ∧ (batch.failed ≠ [] → batch.members.Nodup)

/-- At most one failure is counted for a failed fetch, and none for others. -/
structure CountsOwnFailures (batch : SettledBatch) : Prop where
  counted : ∀ segmentName ∈ batch.counted, segmentName ∈ batch.failed
  once : batch.counted.Nodup

/-- What the client records: the whole batch as soon as one fetch fails. -/
structure BlamesBatch (batch : SettledBatch) : Prop where
  none : batch.failed = [] → batch.counted = []
  all : batch.failed ≠ [] → batch.counted = batch.members

theorem BlamesBatch.countsOwnFailures_iff {batch : SettledBatch} (h : batch.BlamesBatch) :
    batch.CountsOwnFailures ↔ batch.FailsAsOne := by
  constructor
  · intro hown
    constructor
    · rintro ⟨hfailed, segmentName, hmem, hfetched⟩
      apply hfetched
      apply hown.counted
      rw [h.all hfailed]
      exact hmem
    · intro hfailed
      rw [← h.all hfailed]
      exact hown.once
  · rintro ⟨hmixed, hnodup⟩
    by_cases hfailed : batch.failed = []
    · have hcounted := h.none hfailed
      constructor
      · intro segmentName hmem
        rw [hcounted] at hmem
        cases hmem
      · rw [hcounted]
        exact List.nodup_nil
    · have hcounted := h.all hfailed
      constructor
      · intro segmentName hmem
        rw [hcounted] at hmem
        by_contra hfetched
        exact hmixed ⟨hfailed, segmentName, hmem, hfetched⟩
      · rw [hcounted]
        exact hnodup hfailed

end SettledBatch

namespace PlaylistConsumer

variable {σ π : Type*} [PlanData π] {options : ConsumerOptions σ π} {s s' : PlaylistConsumer}

/-- How many fetches of a segment have failed, one at most in each batch. -/
def ownFailures (settled : List SettledBatch) (segmentName : SegmentId) : ℕ :=
  settled.countP fun batch => decide (segmentName ∈ batch.failed)

/-- Failures are counted for failed fetches of the segment only, and no segment is given
up before as many of its own fetches have failed as it has attempts. -/
structure GivesUpOnOwnFailures (s : PlaylistConsumer) : Prop where
  counted : ∀ batch ∈ s.settled, batch.CountsOwnFailures
  attempts : ∀ segmentName failures, s.attempts.get? segmentName = some failures →
    failures ≤ ownFailures s.settled segmentName
  skipped : ∀ earlier batch, earlier ++ [batch] <+: s.settled → ∀ segmentName ∈ batch.skipped,
    segmentName ∈ batch.failed ∧
      MAX_SEGMENT_ATTEMPTS ≤ ownFailures (earlier ++ [batch]) segmentName

/-- A batch under way is planned for its members, every settled one is recorded, and
segments are blamed for their own failures as long as batches fail as one. -/
structure Recorded (s : PlaylistConsumer) : Prop where
  planned : ∀ batch tasks, s.batch = some (batch, tasks) → WellPlanned batch tasks
  settled : ∀ batch ∈ s.settled, batch.BlamesBatch
  blames : (∀ batch ∈ s.settled, batch.FailsAsOne) → s.GivesUpOnOwnFailures

theorem ownFailures_append (settled : List SettledBatch) (batch : SettledBatch)
    (segmentName : SegmentId) :
    ownFailures (settled ++ [batch]) segmentName =
      ownFailures settled segmentName + if segmentName ∈ batch.failed then 1 else 0 := by
  simp [ownFailures, List.countP_append, List.countP_singleton]

/-! ### Counting failures -/

theorem get?_fail (attempts : SegmentAttempts) (first segmentName : SegmentId) :
    (attempts.fail first).2.get? segmentName =
      if segmentName = first then some ((attempts.get? first).getD 0 + 1)
      else attempts.get? segmentName := OrderedMap.get?_set ..

/-- One failure is counted, and the others from there. -/
theorem countFailures_cons (s : PlaylistConsumer) (first : SegmentId) (rest : List SegmentId) :
    ∃ s' : PlaylistConsumer, s'.attempts = (s.attempts.fail first).2 ∧ s'.settled = s.settled ∧
      s.countFailures (first :: rest) = ((s'.countFailures rest).1,
        if (s.attempts.fail first).1 then first :: (s'.countFailures rest).2
        else (s'.countFailures rest).2) := by
  conv in s.countFailures (first :: rest) => unfold countFailures
  dsimp only
  split_ifs
  · exact ⟨{ s with
      attempts := (s.attempts.fail first).2
      processed := s.processed.insert first }, rfl, rfl, rfl⟩
  · exact ⟨{ s with attempts := (s.attempts.fail first).2 }, rfl, rfl, rfl⟩

/-- A failure is counted against each segment of the list. -/
theorem get?_countFailures {segmentNames : List SegmentId} (hnodup : segmentNames.Nodup) :
    ∀ {s : PlaylistConsumer} (segmentName : SegmentId),
      (s.countFailures segmentNames).1.attempts.get? segmentName =
        if segmentName ∈ segmentNames then some ((s.attempts.get? segmentName).getD 0 + 1)
        else s.attempts.get? segmentName := by
  induction segmentNames with
  | nil =>
      intro s segmentName
      rfl
  | cons first rest ih =>
      obtain ⟨hfirst, hrest⟩ := List.nodup_cons.mp hnodup
      intro s segmentName
      obtain ⟨s', hattempts, -, heq⟩ := countFailures_cons s first rest
      rw [heq, ih hrest, hattempts, get?_fail]
      by_cases hname : segmentName = first
      · subst hname
        simp [hfirst]
      · simp [hname]

/-- Only segments of the list are given up, when this failure is their last. -/
theorem skipped_of_countFailures {segmentNames : List SegmentId} (hnodup : segmentNames.Nodup) :
    ∀ {s : PlaylistConsumer}, ∀ segmentName ∈ (s.countFailures segmentNames).2,
      segmentName ∈ segmentNames ∧
        MAX_SEGMENT_ATTEMPTS ≤ (s.attempts.get? segmentName).getD 0 + 1 := by
  induction segmentNames with
  | nil =>
      intro s segmentName hmem
      cases hmem
  | cons first rest ih =>
      obtain ⟨hfirst, hrest⟩ := List.nodup_cons.mp hnodup
      intro s segmentName hmem
      obtain ⟨s', hattempts, -, heq⟩ := countFailures_cons s first rest
      have hlater (hskipped : segmentName ∈ (s'.countFailures rest).2) :
          segmentName ∈ first :: rest ∧
            MAX_SEGMENT_ATTEMPTS ≤ (s.attempts.get? segmentName).getD 0 + 1 := by
        obtain ⟨hname, hfailures⟩ := ih hrest segmentName hskipped
        have hother : segmentName ≠ first := fun heq => hfirst (heq ▸ hname)
        rw [hattempts, get?_fail, if_neg hother] at hfailures
        exact ⟨List.mem_cons_of_mem _ hname, hfailures⟩
      rw [heq] at hmem
      dsimp only at hmem
      split_ifs at hmem with hexhausted
      · rcases List.mem_cons.mp hmem with rfl | hmem
        · exact ⟨List.mem_cons_self, of_decide_eq_true hexhausted⟩
        · exact hlater hmem
      · exact hlater hmem

/-- Segments that are fetched only lose their failures. -/
theorem get?_foldl_markFetched {segmentNames : List SegmentId} {segmentName : SegmentId}
    {failures : ℕ} : ∀ {s : PlaylistConsumer},
      (segmentNames.foldl markFetched s).attempts.get? segmentName = some failures →
        s.attempts.get? segmentName = some failures := by
  induction segmentNames with
  | nil => exact fun h => h
  | cons first rest ih =>
      intro s h
      have hfirst : (s.attempts.delete first).get? segmentName = some failures := ih h
      rw [OrderedMap.get?_delete] at hfirst
      split_ifs at hfirst
      exact hfirst

theorem get?_retain {attempts : SegmentAttempts} {current : OrderedSet SegmentId}
    {segmentName : SegmentId} {failures : ℕ}
    (h : (attempts.retain current).get? segmentName = some failures) :
    attempts.get? segmentName = some failures := by
  unfold SegmentAttempts.retain at h
  rw [OrderedMap.get?_foldl_delete] at h
  split_ifs at h
  exact h

/-! ### The end of a batch is recorded -/

theorem countFailures_settled {segmentNames : List SegmentId} : ∀ {s : PlaylistConsumer},
    (s.countFailures segmentNames).1.settled = s.settled := by
  induction segmentNames with
  | nil =>
      intro s
      rfl
  | cons first rest ih =>
      intro s
      obtain ⟨s', -, hsettled, heq⟩ := countFailures_cons s first rest
      rw [heq, ih, hsettled]

theorem foldl_markFetched_settled {segmentNames : List SegmentId} : ∀ {s : PlaylistConsumer},
    (segmentNames.foldl markFetched s).settled = s.settled := by
  induction segmentNames with
  | nil =>
      intro s
      rfl
  | cons first rest ih =>
      intro s
      exact ih

/-- The record of a batch that has settled. If its members fail as one, the failures
that are counted then are those there were and the members' own. -/
theorem settleBatch_settled {maxParallel : ℕ} (hpos : 0 < maxParallel) {outcome : FetchOutcomes}
    {batch : List PendingSegment} {tasks : BatchTasks} (hplanned : WellPlanned batch tasks) :
    ∃ record, (s.settleBatch maxParallel outcome batch tasks).settled = s.settled ++ [record] ∧
      record.BlamesBatch ∧
      (record.FailsAsOne → ∀ segmentName,
        (∀ failures,
          (s.settleBatch maxParallel outcome batch tasks).attempts.get? segmentName
              = some failures →
            failures ≤ (s.attempts.get? segmentName).getD 0
              + if segmentName ∈ record.failed then 1 else 0) ∧
        (segmentName ∈ record.skipped → segmentName ∈ record.failed ∧
          MAX_SEGMENT_ATTEMPTS ≤ (s.attempts.get? segmentName).getD 0 + 1)) := by
  have hok := @fetchResult_ok_iff outcome maxParallel hpos batch tasks hplanned
  have hnone : (batch.map PendingSegment.segmentName).filter (hasFailed outcome) = [] ↔
      ∀ segmentName ∈ batch.map PendingSegment.segmentName,
        hasFailed outcome segmentName = false := by
    rw [List.filter_eq_nil_iff]
    exact forall_congr' fun _ => imp_congr Iff.rfl Bool.eq_false_iff.symm
  unfold settleBatch
  dsimp only
  cases hresult : fetchResult maxParallel outcome batch tasks with
  | ok fetched =>
      refine ⟨_, congrArg (· ++ _) foldl_markFetched_settled, ⟨?_, ?_⟩, ?_⟩
      · intro _
        rfl
      · intro hfailed
        exact absurd (hnone.mpr (hok.mp ⟨fetched, hresult⟩)) hfailed
      · intro _ segmentName
        constructor
        · intro failures hfailures
          rw [get?_foldl_markFetched hfailures]
          exact Nat.le_add_right _ _
        · intro hskipped
          cases hskipped
  | error reason =>
      have hfailed : (batch.map PendingSegment.segmentName).filter (hasFailed outcome) ≠ [] := by
        intro hempty
        rcases hok.mpr (hnone.mp hempty) with ⟨fetched, hfetched⟩
        rw [hresult] at hfetched
        cases hfetched
      refine ⟨_, congrArg (· ++ _) countFailures_settled, ⟨?_, ?_⟩, ?_⟩
      · intro hempty
        exact absurd hempty hfailed
      · intro _
        rfl
      · rintro ⟨hmixed, hnodup⟩ segmentName
        -- Every member's own fetch has failed.
        have hall : ∀ name ∈ batch.map PendingSegment.segmentName,
            name ∈ (batch.map PendingSegment.segmentName).filter (hasFailed outcome) := by
          intro name hmem
          by_contra hfetched
          exact hmixed ⟨hfailed, name, hmem, hfetched⟩
        constructor
        · intro failures hfailures
          change (s.countFailures _).1.attempts.get? segmentName = some failures at hfailures
          rw [get?_countFailures (hnodup hfailed)] at hfailures
          split_ifs at hfailures with hmem
          · rw [if_pos (hall segmentName hmem)]
            exact (Option.some.inj hfailures).ge
          · rw [hfailures]
            exact Nat.le_add_right _ _
        · intro hskipped
          obtain ⟨hmem, hmax⟩ := skipped_of_countFailures (hnodup hfailed) segmentName hskipped
          exact ⟨hall segmentName hmem, hmax⟩

/-- A batch that fails as one keeps the blame right. -/
theorem GivesUpOnOwnFailures.settle (h : s.GivesUpOnOwnFailures) {record : SettledBatch}
    (hcounts : record.CountsOwnFailures) (hsettled : s'.settled = s.settled ++ [record])
    (hattempts : ∀ segmentName failures, s'.attempts.get? segmentName = some failures →
      failures ≤ (s.attempts.get? segmentName).getD 0
        + if segmentName ∈ record.failed then 1 else 0)
    (hskipped : ∀ segmentName ∈ record.skipped, segmentName ∈ record.failed ∧
      MAX_SEGMENT_ATTEMPTS ≤ (s.attempts.get? segmentName).getD 0 + 1) :
    s'.GivesUpOnOwnFailures := by
  have hbefore : ∀ segmentName,
      (s.attempts.get? segmentName).getD 0 ≤ ownFailures s.settled segmentName := by
    intro segmentName
    cases hget : s.attempts.get? segmentName with
    | none => exact Nat.zero_le _
    | some failures => exact h.attempts segmentName failures hget
  constructor
  · intro batch hmem
    rw [hsettled] at hmem
    rcases List.mem_append.mp hmem with hmem | hmem
    · exact h.counted batch hmem
    · rw [List.mem_singleton.mp hmem]
      exact hcounts
  · intro segmentName failures hfailures
    rw [hsettled, ownFailures_append]
    exact (hattempts segmentName failures hfailures).trans
      (Nat.add_le_add_right (hbefore segmentName) _)
  · intro earlier batch hprefix segmentName hmem
    rw [hsettled, List.prefix_concat_iff] at hprefix
    rcases hprefix with hlast | hprefix
    · obtain ⟨rfl, hbatch⟩ := List.append_inj' hlast rfl
      obtain rfl := List.cons.inj hbatch |>.1
      obtain ⟨hfailed, hmax⟩ := hskipped segmentName hmem
      refine ⟨hfailed, ?_⟩
      rw [ownFailures_append, if_pos hfailed]
      exact hmax.trans (Nat.add_le_add_right (hbefore segmentName) 1)
    · exact h.skipped earlier batch hprefix segmentName hmem

theorem Recorded.step (h : Recorded s) {event : ConsumerEvent σ}
    (hstep : PlaylistConsumer.step options s event = some s') : Recorded s' := by
  cases event with
  | playlist segments =>
      simp only [PlaylistConsumer.step] at hstep
      split_ifs at hstep
      obtain rfl := Option.some.inj hstep
      refine ⟨h.planned, h.settled, fun hone => ?_⟩
      have hblames := h.blames hone
      exact ⟨hblames.counted,
        fun segmentName failures hget => hblames.attempts segmentName failures (get?_retain hget),
        hblames.skipped⟩
  | fetchBatch candidates scheduler =>
      simp only [PlaylistConsumer.step] at hstep
      split_ifs at hstep
      obtain rfl := Option.some.inj hstep
      refine ⟨startBatch_wellPlanned options s candidates scheduler, h.settled, fun hone => ?_⟩
      have hblames := h.blames hone
      exact ⟨hblames.counted, hblames.attempts, hblames.skipped⟩
  | settles outcome =>
      rcases Option.map_eq_some_iff.mp hstep with ⟨⟨batch, tasks⟩, hbatch, rfl⟩
      rcases settleBatch_settled options.maxParallelDownloads.2.1 (h.planned batch tasks hbatch)
        with ⟨record, hsettled, hrecord, hcharged⟩
      refine ⟨?_, ?_, fun hone => ?_⟩
      · intro batch tasks hnext
        cases hnext
      · intro other hmem
        rw [hsettled] at hmem
        rcases List.mem_append.mp hmem with hmem | hmem
        · exact h.settled other hmem
        · rw [List.mem_singleton.mp hmem]
          exact hrecord
      · rw [hsettled, List.forall_mem_append, List.forall_mem_singleton] at hone
        obtain ⟨hbefore, hlast⟩ := hone
        exact (h.blames hbefore).settle (hrecord.countsOwnFailures_iff.mpr hlast) hsettled
          (fun segmentName => (hcharged hlast segmentName).1)
          (fun segmentName => (hcharged hlast segmentName).2)
  | abort =>
      obtain rfl := Option.some.inj hstep
      refine ⟨h.planned, h.settled, fun hone => ?_⟩
      have hblames := h.blames hone
      exact ⟨hblames.counted, hblames.attempts, hblames.skipped⟩

theorem Reachable.recorded (hr : (system options).Reachable (fun _ _ => True) s) : Recorded s := by
  refine hr.invariant Recorded ?_ ?_
  · rintro s rfl
    refine ⟨?_, ?_, fun _ => ⟨?_, ?_, ?_⟩⟩
    · intro batch tasks hbatch
      cases hbatch
    · intro batch hmem
      cases hmem
    · intro batch hmem
      cases hmem
    · intro segmentName failures hget
      cases hget
    · intro earlier batch hprefix
      exact absurd (List.prefix_nil.mp hprefix) (by simp)
  · intro s event s' h _ hstep
    exact h.step hstep

/-- **Segments are blamed for their own failures if and only if every batch fails as one**, in
every run: for the failures that are counted, and for the segments that are given up. -/
theorem gives_up_on_own_failures_iff (hr : (system options).Reachable (fun _ _ => True) s) :
    s.GivesUpOnOwnFailures ↔ ∀ batch ∈ s.settled, batch.FailsAsOne := by
  have hrecorded := Reachable.recorded hr
  constructor
  · intro hblames batch hmem
    exact (hrecorded.settled batch hmem).countsOwnFailures_iff.mp (hblames.counted batch hmem)
  · exact hrecorded.blames

/-! ### Segments that are given up -/

/-- A client that fetches two segments at a time. -/
def twoAtATime : ConsumerOptions WeightedScoreScheduler SegmentSchedulingPlan where
  scheduler := WeightedScoreScheduler.scheduler DEFAULT_URGENT_THRESHOLD_SEGMENTS
  selfPeerId := "self"
  maxParallelDownloads := ⟨2, by decide⟩
  deadlineConfig := none

/-- The origin has no sidecar of one of the segments. -/
def withoutSidecar : FetchOutcomes := fun segmentName =>
  if segmentName = "b.ts" then .error "Failed to fetch hash for 'b.ts': HTTP 404" else .ok [71]

/-- A poll finds the segment alone. -/
def pollAlone : List (ConsumerEvent WeightedScoreScheduler) :=
  [.playlist ["b.ts"], .fetchBatch [] .empty, .settles withoutSidecar]

/-- It is given up after three failed fetches of its own. -/
theorem gives_up_on_own_failures_alone :
    ∃ s, (system twoAtATime).run new (pollAlone ++ pollAlone ++ pollAlone) = some s ∧
      s.processed.toList = ["b.ts"] ∧ s.GivesUpOnOwnFailures := by
  have hrun : ((system twoAtATime).run new (pollAlone ++ pollAlone ++ pollAlone)).map
      (fun s => (s.processed.toList, s.settled)) =
      some (["b.ts"], [⟨["b.ts"], ["b.ts"], ["b.ts"], []⟩, ⟨["b.ts"], ["b.ts"], ["b.ts"], []⟩,
        ⟨["b.ts"], ["b.ts"], ["b.ts"], ["b.ts"]⟩]) := by
    decide +kernel
  rcases Option.map_eq_some_iff.mp hrun with ⟨s, hs, hsettled⟩
  obtain ⟨hprocessed, hsettled⟩ := Prod.mk.inj hsettled
  refine ⟨s, hs, hprocessed, ?_⟩
  refine (gives_up_on_own_failures_iff (TransitionSystem.reachable_of_run rfl hs)).mpr ?_
  rw [hsettled]
  simp [SettledBatch.FailsAsOne, SettledBatch.Mixed]

/-- A poll finds the segment before three others. -/
def pollWithOthers : List (ConsumerEvent WeightedScoreScheduler) :=
  [.playlist ["a.ts", "b.ts", "c.ts", "d.ts"], .fetchBatch [] .empty, .settles withoutSidecar,
    .fetchBatch [] .empty, .settles withoutSidecar, .fetchBatch [] .empty, .settles withoutSidecar]

/-- The first segment is fetched three times and given up. -/
theorem mixed_batch_gives_up_fetched_segment :
    ¬ ∀ s, (system twoAtATime).Reachable (fun _ _ => True) s → s.GivesUpOnOwnFailures := by
  intro h
  have hrun : ((system twoAtATime).run new (pollWithOthers ++ pollWithOthers.take 3 ++
      pollWithOthers.take 3)).map PlaylistConsumer.settled =
      some [⟨["a.ts", "b.ts"], ["b.ts"], ["a.ts", "b.ts"], []⟩, ⟨["c.ts"], [], [], []⟩,
        ⟨["d.ts"], [], [], []⟩, ⟨["a.ts", "b.ts"], ["b.ts"], ["a.ts", "b.ts"], []⟩,
        ⟨["a.ts", "b.ts"], ["b.ts"], ["a.ts", "b.ts"], ["a.ts", "b.ts"]⟩] := by
    decide +kernel
  rcases Option.map_eq_some_iff.mp hrun with ⟨s, hs, hsettled⟩
  have hblames := (h s (TransitionSystem.reachable_of_run rfl hs)).skipped
    [⟨["a.ts", "b.ts"], ["b.ts"], ["a.ts", "b.ts"], []⟩, ⟨["c.ts"], [], [], []⟩,
      ⟨["d.ts"], [], [], []⟩, ⟨["a.ts", "b.ts"], ["b.ts"], ["a.ts", "b.ts"], []⟩]
    ⟨["a.ts", "b.ts"], ["b.ts"], ["a.ts", "b.ts"], ["a.ts", "b.ts"]⟩
    (by rw [hsettled]; exact List.prefix_rfl)
  exact absurd (hblames "a.ts" List.mem_cons_self).1 (by decide)

end PlaylistConsumer

end OpenStreamGrid
