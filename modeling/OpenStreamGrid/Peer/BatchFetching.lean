import Mathlib.Data.List.MinMax
import OpenStreamGrid.Peer.FetchDeadlines

/-!
# Fetching a batch

`fetchSegments` executes the assignments of a batch plan in waves, each started when
every task of the one before has settled. The plans' hints are not among what an
assignment keeps, so a task tries its peer without a budget and without a hedge. A
segment that another request fetches already is not fetched again: the task waits for
that fetch, whatever the segment's own plan says.
-/

namespace OpenStreamGrid

namespace Node

/-- `fetchSegments` under way: the segments in the cache, the fetches that other requests have in
flight, the tasks of the current wave, the waves that wait, the tasks of the waves before, and when
a task has settled last. -/
structure BatchFetch where
  cache : List SegmentId
  inFlightSegments : OrderedMap SegmentId SegmentFetch
  wave : List (SegmentId × SegmentFetch)
  waiting : List (List BatchAssignment)
  settled : List (SegmentId × SegmentFetch)
  settledAt : ℚ≥0
deriving DecidableEq

/-- How another request fetches a segment. -/
inductive OtherFetch where
  /-- From a peer without a hedge, or from the origin. -/
  | assigned (peer : Option Peer)
  | hedged (peerAttemptBudgetMs : Option ℚ≥0) (originHedgeDelayMs : ℚ≥0)

def OtherFetch.start (options : FetcherOptions) (clock : ℚ≥0) : OtherFetch → SegmentFetch
  | .assigned peer => fetchAssignedSegment options clock peer
  | .hedged peerAttemptBudgetMs originHedgeDelayMs =>
      ⟨.hedging (.start options clock peerAttemptBudgetMs) (.waiting (clock + originHedgeDelayMs)),
        none, none⟩

inductive BatchEvent where
  /-- Every task of the wave has settled, and the next one starts. -/
  | startWave
  | task (index : ℕ) (event : FetchEvent)
  /-- Another request comes for a segment, -/
  | otherStarts (segmentId : SegmentId) (fetch : OtherFetch)
  /-- its fetch goes on, -/
  | other (segmentId : SegmentId) (event : FetchEvent)
  /-- or ends because all who wait for it are aborted. -/
  | otherAborted (segmentId : SegmentId)
  /-- The cache drops a segment. -/
  | evicts (segmentId : SegmentId)

namespace BatchFetch

section Step

variable (options : FetcherOptions) (peers : OrderedMap PeerId Peer)

/-- The fetch in flight that a task waits for. -/
def existing (batch : BatchFetch) (assignment : BatchAssignment) : Option SegmentFetch :=
  if assignment.segmentId ∈ batch.cache then none
  else batch.inFlightSegments.get? assignment.segmentId

/-- A plan has one assignment for each segment, so what a task finds in flight is another
request's. -/
def startTask (clock : ℚ≥0) (batch : BatchFetch) (assignment : BatchAssignment) :
    SegmentId × SegmentFetch :=
  (assignment.segmentId,
    if assignment.segmentId ∈ batch.cache then ⟨.obtained, none, some clock⟩
    else match batch.inFlightSegments.get? assignment.segmentId with
      -- Neither the assigned peer nor the deadline counts.
      | some existing => existing
      | none => fetchAssignedSegment options clock (assignment.peerId.bind peers.get?))

/-- The fetches that tasks wait for are the tasks' from now on. -/
def startWave (clock : ℚ≥0) (batch : BatchFetch) (next : List BatchAssignment)
    (waiting : List (List BatchAssignment)) : BatchFetch :=
  let joined := (next.filter fun assignment => (batch.existing assignment).isSome).map
    BatchAssignment.segmentId
  { batch with
    inFlightSegments := joined.foldl OrderedMap.delete batch.inFlightSegments
    wave := next.map (startTask options peers clock batch)
    waiting := waiting
    settled := batch.settled ++ batch.wave }

/-- No time passes between the end of a wave and the start of the next one. -/
def timers (batch : BatchFetch) : List ℚ≥0 :=
  batch.wave.flatMap (fun task => task.2.timers) ++
    batch.inFlightSegments.values.flatMap SegmentFetch.timers ++
    if batch.waiting ≠ [] ∧ ∀ task ∈ batch.wave, task.2.Settled then [batch.settledAt] else []

/-- What a fetched segment has verified is cached. -/
def cached (batch : BatchFetch) (segmentId : SegmentId) (fetch : SegmentFetch) : List SegmentId :=
  if fetch.stage = .obtained then segmentId :: batch.cache else batch.cache

/-- `fetchSegment`, and another batch, start a fetch for what is neither cached nor in flight. -/
def IsMissing (batch : BatchFetch) (segmentId : SegmentId) : Prop :=
  segmentId ∉ batch.cache ∧ batch.inFlightSegments.get? segmentId = none ∧
    ∀ task ∈ batch.wave, task.1 = segmentId → task.2.Settled

instance (batch : BatchFetch) (segmentId : SegmentId) : Decidable (batch.IsMissing segmentId) :=
  inferInstanceAs (Decidable (_ ∧ _ ∧ _))

def step (clock : ℚ≥0) (batch : BatchFetch) : BatchEvent → Option BatchFetch
  | .startWave =>
      match batch.waiting with
      | [] => none
      | next :: waiting =>
          if ∀ task ∈ batch.wave, task.2.Settled then
            some (batch.startWave options peers clock next waiting)
          else none
  | .task index event => do
      let task ← batch.wave[index]?
      let fetch ← task.2.step options clock event
      return { batch with
        cache := batch.cached task.1 fetch
        wave := batch.wave.set index (task.1, fetch)
        settledAt := clock }
  | .otherStarts segmentId fetch =>
      if batch.IsMissing segmentId then
        some { batch with
          inFlightSegments := batch.inFlightSegments.set segmentId (fetch.start options clock) }
      else none
  | .other segmentId event => do
      let fetch ← batch.inFlightSegments.get? segmentId
      let fetch ← fetch.step options clock event
      return { batch with
        cache := batch.cached segmentId fetch
        inFlightSegments := if fetch.Settled then batch.inFlightSegments.delete segmentId
          else batch.inFlightSegments.set segmentId fetch }
  | .otherAborted segmentId =>
      some { batch with inFlightSegments := batch.inFlightSegments.delete segmentId }
  | .evicts segmentId => some { batch with cache := batch.cache.filter (· ≠ segmentId) }

end Step

end BatchFetch

section Batch

variable {σ : Type*} (options : FetcherOptions)
  (baseScheduler : SegmentScheduler σ SegmentSchedulingPlan)

/-- The assignments a batch is planned to. -/
def planAssignments (requests : List BatchSegmentRequest) (peers : List Peer)
    (s : DeadlineAwareScheduler.State σ) : Except String (List BatchAssignment) :=
  (planBatch (options.scheduler baseScheduler) requests (schedulingPeersFor peers)
    options.selfPeerId (.finite options.maxParallel) options.deadlineConfig s).map
    fun planned => planned.1.assignments

/-- The batch as it is when its assignments have been planned, at time zero. -/
def fetchSegments (cache : List SegmentId) (inFlightSegments : OrderedMap SegmentId SegmentFetch)
    (assignments : List BatchAssignment) : BatchFetch where
  cache := cache
  inFlightSegments := inFlightSegments
  wave := []
  waiting := executionWaves options.maxParallel assignments
  settled := []
  settledAt := 0

/-- The runs of a batch. -/
def batchFetching (peers : List Peer) (batch : BatchFetch) : TimedSystem BatchFetch BatchEvent where
  init s := s = batch
  timers := BatchFetch.timers
  event clock s e := s.step options (peersById peers) clock e

end Batch

/-! ## How long the waves can take -/

section Limits

variable (options : FetcherOptions)

def originLimit : ℚ≥0 := DEFAULT_ORIGIN_TIMEOUT_MS + HASH_REQUEST_TIMEOUT_MS

/-- How long a task can wait for its peer. -/
def peerLimit (assignment : BatchAssignment) : ℚ≥0 :=
  if assignment.peerId.isSome then options.attemptLimit else 0

def waveLimit (wave : List BatchAssignment) : ℚ≥0 :=
  (wave.map fun assignment => peerLimit options assignment + originLimit).foldr max 0

/-- When at the latest each segment's origin request starts, if its peer fails it, where the first
wave starts by a given time. -/
def latestOriginStarts (start : ℚ≥0) : List (List BatchAssignment) → List (SegmentId × ℚ≥0)
  | [] => []
  | wave :: waves =>
      (wave.map fun assignment => (assignment.segmentId, start + peerLimit options assignment)) ++
        latestOriginStarts (start + waveLimit options wave) waves

/-- The limits of the waves before and of its own attempt bring a segment to the origin in time. -/
def FitsBy (bound start : ℚ≥0) (segmentId : SegmentId) (waves : List (List BatchAssignment)) :
    Prop :=
  ∃ latest, (segmentId, latest) ∈ latestOriginStarts options start waves ∧ latest ≤ bound

theorem le_waveLimit {wave : List BatchAssignment} {assignment : BatchAssignment}
    (h : assignment ∈ wave) : peerLimit options assignment + originLimit ≤ waveLimit options wave :=
  List.le_max_of_le' 0 (List.mem_map_of_mem h) le_rfl

theorem FitsBy.start_le {bound start : ℚ≥0} {segmentId : SegmentId}
    {waves : List (List BatchAssignment)} (h : FitsBy options bound start segmentId waves) :
    start ≤ bound := by
  obtain ⟨latest, hmem, hlatest⟩ := h
  refine le_trans ?_ hlatest
  induction waves generalizing start with
  | nil => cases hmem
  | cons wave waves ih =>
      rcases List.mem_append.mp hmem with hwave | hlater
      · obtain ⟨assignment, -, heq⟩ := List.mem_map.mp hwave
        obtain ⟨rfl, rfl⟩ := Prod.mk.inj heq
        exact le_self_add
      · exact le_self_add.trans (ih hlater)

theorem FitsBy.later {bound start : ℚ≥0} {segmentId : SegmentId}
    {waves : List (List BatchAssignment)} (h : FitsBy options bound start segmentId waves) :
    ∃ wave ∈ waves, ∃ assignment ∈ wave, assignment.segmentId = segmentId := by
  obtain ⟨latest, hmem, -⟩ := h
  induction waves generalizing start with
  | nil => cases hmem
  | cons wave waves ih =>
      rcases List.mem_append.mp hmem with hwave | hlater
      · obtain ⟨assignment, hassignment, heq⟩ := List.mem_map.mp hwave
        exact ⟨wave, List.mem_cons_self, assignment, hassignment, (Prod.mk.inj heq).1⟩
      · obtain ⟨later, hlater, hrest⟩ := ih hlater
        exact ⟨later, List.mem_cons_of_mem _ hlater, hrest⟩

end Limits

/-! ## How long a task can take -/

/-- An origin request is under way and ends by `limit`. -/
def OriginRequest.OverBy (limit clock : ℚ≥0) : OriginRequest → Prop
  | .requesting timeoutAt => clock ≤ timeoutAt ∧ timeoutAt + HASH_REQUEST_TIMEOUT_MS ≤ limit
  | .verifying timeoutAt => clock ≤ timeoutAt ∧ timeoutAt ≤ limit
  | .delivered | .failed => False

/-- The origin's part of a hedged fetch ends by `limit`. -/
def HedgeStage.OverBy (limit clock : ℚ≥0) : HedgeStage → Prop
  | .waiting startAt => clock ≤ startAt ∧ startAt + originLimit ≤ limit
  | .started request => request.OverBy limit clock

/-- A task has settled, or the limits of what is left of it end by `limit`. A hedged fetch goes on
until both of its parts have failed. -/
def SegmentFetch.SettlesBy (options : FetcherOptions) (limit clock : ℚ≥0) (fetch : SegmentFetch) :
    Prop :=
  match fetch.stage with
  | .tryingPeer attempt => ∃ latest, attempt.OverBy options latest clock ∧ latest + originLimit ≤ limit
  | .fetchingOrigin request => request.OverBy limit clock
  | .hedging attempt hedge =>
      attempt.OverBy options limit clock ∧ (hedge.OverBy limit clock ∨ hedge = .started .failed) ∨
        attempt.stage = .failed ∧ hedge.OverBy limit clock
  | .obtained | .failed => True

section Settling

variable {options : FetcherOptions} {limit clock clock' : ℚ≥0}

namespace OriginRequest

variable {request request' : OriginRequest}

theorem start_overBy (hlimit : clock + originLimit ≤ limit) : (start clock).OverBy limit clock := by
  refine ⟨le_self_add, ?_⟩
  rw [add_assoc]
  exact hlimit

theorem OverBy.clock_le (h : request.OverBy limit clock) : clock ≤ limit := by
  cases request with
  | requesting timeoutAt => exact h.1.trans (le_self_add.trans h.2)
  | verifying timeoutAt => exact h.1.trans h.2
  | delivered => exact h.elim
  | failed => exact h.elim

theorem OverBy.elapse (h : request.OverBy limit clock)
    (htimers : ∀ due ∈ request.timers, clock' ≤ due) : request.OverBy limit clock' := by
  cases request with
  | requesting timeoutAt => exact ⟨htimers timeoutAt (List.mem_singleton_self timeoutAt), h.2⟩
  | verifying timeoutAt => exact ⟨htimers timeoutAt (List.mem_singleton_self timeoutAt), h.2⟩
  | delivered => exact h
  | failed => exact h

theorem OverBy.step {e : OriginEvent} (h : request.OverBy limit clock)
    (hstep : request.step clock e = some request') :
    request' = .delivered ∨ request' = .failed ∨ request'.OverBy limit clock := by
  cases request with
  | requesting timeoutAt =>
      cases e with
      | answers =>
          obtain rfl := Option.some.inj hstep
          exact Or.inr (Or.inr ⟨le_self_add, add_le_of_due h.1 h.2 le_rfl⟩)
      | fails =>
          obtain rfl := Option.some.inj hstep
          exact Or.inr (Or.inl rfl)
      | timesOut =>
          change (if timeoutAt ≤ clock then some _ else none) = some request' at hstep
          split_ifs at hstep
          obtain rfl := Option.some.inj hstep
          exact Or.inr (Or.inl rfl)
      | _ => cases hstep
  | verifying timeoutAt =>
      cases e with
      | hashMatches =>
          obtain rfl := Option.some.inj hstep
          exact Or.inl rfl
      | hashFails =>
          obtain rfl := Option.some.inj hstep
          exact Or.inr (Or.inl rfl)
      | _ => cases hstep
  | delivered => exact h.elim
  | failed => exact h.elim

end OriginRequest

namespace HedgeStage

variable {hedge : HedgeStage}

theorem OverBy.clock_le (h : hedge.OverBy limit clock) : clock ≤ limit := by
  cases hedge with
  | waiting startAt => exact h.1.trans (le_self_add.trans h.2)
  | started request => exact OriginRequest.OverBy.clock_le h

theorem OverBy.elapse {attempt : PeerAttempt} {originStartedAt bytesAt : Option ℚ≥0}
    (h : hedge.OverBy limit clock)
    (htimers : ∀ due ∈ SegmentFetch.timers ⟨.hedging attempt hedge, originStartedAt, bytesAt⟩,
      clock' ≤ due) : hedge.OverBy limit clock' := by
  cases hedge with
  | waiting startAt => exact ⟨htimers startAt List.mem_cons_self, h.2⟩
  | started request =>
      exact OriginRequest.OverBy.elapse h fun due hdue => htimers due (List.mem_append_right _ hdue)

end HedgeStage

theorem PeerAttempt.mem_timers_hedging {attempt : PeerAttempt} {hedge : HedgeStage}
    {originStartedAt bytesAt : Option ℚ≥0} {due : ℚ≥0} (hdue : due ∈ attempt.timers) :
    due ∈ SegmentFetch.timers ⟨.hedging attempt hedge, originStartedAt, bytesAt⟩ := by
  cases hedge with
  | waiting startAt => exact List.mem_cons_of_mem _ hdue
  | started request => exact List.mem_append_left _ hdue

theorem PeerAttempt.not_failed_of_step {attempt attempt' : PeerAttempt} {e : AttemptEvent}
    (hstep : attempt.step options clock e = some attempt') : attempt.stage ≠ .failed := by
  obtain ⟨stage, abortAt, aborted⟩ := attempt
  rintro hstage
  obtain rfl : stage = .failed := hstage
  cases e with
  | aborts =>
      obtain ⟨due, -, hrest⟩ := Option.bind_eq_some_iff.mp hstep
      rw [if_neg (by simp)] at hrest
      cases hrest
  | _ => cases hstep

namespace SegmentFetch

variable {fetch fetch' : SegmentFetch}

/-- A task that has not settled is within its limits. -/
theorem SettlesBy.clock_le (h : fetch.SettlesBy options limit clock) (hopen : ¬fetch.Settled) :
    clock ≤ limit := by
  obtain ⟨stage, originStartedAt, bytesAt⟩ := fetch
  cases stage with
  | tryingPeer attempt =>
      obtain ⟨latest, hover, hlatest⟩ := h
      exact hover.clock_le.trans (le_self_add.trans hlatest)
  | hedging attempt hedge =>
      rcases h with ⟨hover, -⟩ | ⟨-, hover⟩
      · exact hover.clock_le
      · exact hover.clock_le
  | fetchingOrigin request => exact OriginRequest.OverBy.clock_le h
  | obtained => exact absurd (Or.inl rfl) hopen
  | failed => exact absurd (Or.inr rfl) hopen

theorem not_settled_of_step {e : FetchEvent} (hstep : fetch.step options clock e = some fetch') :
    ¬fetch.Settled := by
  obtain ⟨stage, originStartedAt, bytesAt⟩ := fetch
  rintro (hstage | hstage)
  · obtain rfl : stage = .obtained := hstage
    cases e <;> cases hstep
  · obtain rfl : stage = .failed := hstage
    cases e <;> cases hstep

theorem SettlesBy.elapse (h : fetch.SettlesBy options limit clock)
    (htimers : ∀ due ∈ fetch.timers, clock' ≤ due) : fetch.SettlesBy options limit clock' := by
  obtain ⟨stage, originStartedAt, bytesAt⟩ := fetch
  cases stage with
  | tryingPeer attempt =>
      obtain ⟨latest, hover, hlatest⟩ := h
      exact ⟨latest, hover.elapse htimers, hlatest⟩
  | hedging attempt hedge =>
      rcases h with ⟨hover, hhedge⟩ | ⟨hfailed, hover⟩
      · refine Or.inl ⟨hover.elapse fun due hdue => htimers due (PeerAttempt.mem_timers_hedging hdue), ?_⟩
        exact hhedge.imp_left fun hhedge => hhedge.elapse htimers
      · exact Or.inr ⟨hfailed, hover.elapse htimers⟩
  | fetchingOrigin request => exact OriginRequest.OverBy.elapse h htimers
  | obtained => trivial
  | failed => trivial

/-- A hedged fetch goes on within its limits: its attempt does, -/
theorem SettlesBy.continueHedgedAttempt {attempt before : PeerAttempt} {hedge : HedgeStage}
    {originStartedAt bytesAt : Option ℚ≥0}
    (hhedge : hedge.OverBy limit clock ∨ hedge = .started .failed)
    (hattempt : attempt.stage = .delivered ∨ attempt.stage = .failed ∨
      attempt.OverBy options limit clock) :
    (SegmentFetch.continueAttempt clock ⟨.hedging before hedge, originStartedAt, bytesAt⟩
      attempt).SettlesBy options limit clock := by
  unfold continueAttempt
  dsimp only
  split_ifs with hdelivered hfailed
  · trivial
  · cases hedge with
    | waiting startAt =>
        obtain ⟨hstart, hlimit⟩ := hhedge.resolve_right (fun h => by cases h)
        exact Or.inr ⟨hfailed, OriginRequest.start_overBy ((add_le_add hstart le_rfl).trans hlimit)⟩
    | started request =>
        rcases hhedge with hover | hended
        · cases request with
          | failed => trivial
          | _ => exact Or.inr ⟨hfailed, hover⟩
        · cases hended
          trivial
  · exact Or.inl ⟨(hattempt.resolve_left hdelivered).resolve_left hfailed, hhedge⟩

/-- or its origin request. -/
theorem SettlesBy.continueHedgedOrigin {attempt : PeerAttempt} {hedge : HedgeStage}
    {request : OriginRequest} {originStartedAt bytesAt : Option ℚ≥0}
    (hattempt : attempt.OverBy options limit clock ∨ attempt.stage = .failed)
    (hrequest : request = .delivered ∨ request = .failed ∨ request.OverBy limit clock) :
    (SegmentFetch.continueOrigin ⟨.hedging attempt hedge, originStartedAt, bytesAt⟩
      request).SettlesBy options limit clock := by
  unfold continueOrigin
  dsimp only
  split_ifs with hdelivered hfailed
  · trivial
  · trivial
  · rcases hrequest.resolve_left hdelivered with rfl | hover
    · exact Or.inl ⟨hattempt.resolve_right fun hstage => hfailed ⟨rfl, hstage⟩, Or.inr rfl⟩
    · rcases hattempt with hattempt | hattempt
      · exact Or.inl ⟨hattempt, Or.inl hover⟩
      · exact Or.inr ⟨hattempt, hover⟩

/-- Every event leaves a task within its limits. -/
theorem SettlesBy.step {e : FetchEvent} (h : fetch.SettlesBy options limit clock)
    (hstep : fetch.step options clock e = some fetch') : fetch'.SettlesBy options limit clock := by
  obtain ⟨stage, originStartedAt, bytesAt⟩ := fetch
  cases stage with
  | tryingPeer attempt =>
      obtain ⟨latest, hover, hlatest⟩ := h
      cases e with
      | attempt event =>
          obtain ⟨attempt', hevent, hfetch⟩ := Option.bind_eq_some_iff.mp hstep
          obtain rfl := Option.some.inj hfetch
          unfold continueAttempt
          dsimp only
          split_ifs with hdelivered hfailed
          · trivial
          · refine OriginRequest.start_overBy (le_trans ?_ hlatest)
            exact add_le_add hover.clock_le le_rfl
          · rcases hover.step hevent with hstage | hstage | hover'
            · exact absurd hstage hdelivered
            · exact absurd hstage hfailed
            · exact ⟨latest, hover', hlatest⟩
      | hedgeStarts => cases hstep
      | origin event => cases hstep
  | hedging attempt hedge =>
      cases e with
      | attempt event =>
          obtain ⟨attempt', hevent, hfetch⟩ := Option.bind_eq_some_iff.mp hstep
          obtain rfl := Option.some.inj hfetch
          rcases h with ⟨hover, hhedge⟩ | ⟨hfailed, -⟩
          · exact continueHedgedAttempt hhedge (hover.step hevent)
          · exact absurd hfailed (PeerAttempt.not_failed_of_step hevent)
      | hedgeStarts =>
          cases hedge with
          | started request => cases hstep
          | waiting startAt =>
              change (if startAt ≤ clock then some _ else none) = some fetch' at hstep
              split_ifs at hstep
              obtain rfl := Option.some.inj hstep
              have hstarts : ∀ {startAt : ℚ≥0}, HedgeStage.OverBy limit clock (.waiting startAt) →
                  HedgeStage.OverBy limit clock (.started (.start clock)) :=
                fun hover => OriginRequest.start_overBy ((add_le_add hover.1 le_rfl).trans hover.2)
              rcases h with ⟨hover, hhedge⟩ | ⟨hfailed, hhedge⟩
              · exact Or.inl ⟨hover, Or.inl (hstarts (hhedge.resolve_right fun h => by cases h))⟩
              · exact Or.inr ⟨hfailed, hstarts hhedge⟩
      | origin event =>
          cases hedge with
          | waiting startAt => cases hstep
          | started request =>
              obtain ⟨request', hevent, hfetch⟩ := Option.bind_eq_some_iff.mp hstep
              obtain rfl := Option.some.inj hfetch
              have hopen : request ≠ .failed := by
                rintro rfl
                cases event <;> cases hevent
              refine continueHedgedOrigin (h.imp And.left And.left) ?_
              rcases h with ⟨-, hover | hended⟩ | ⟨-, hover⟩
              · exact OriginRequest.OverBy.step hover hevent
              · cases hended
                exact absurd rfl hopen
              · exact OriginRequest.OverBy.step hover hevent
  | fetchingOrigin request =>
      cases e with
      | attempt event => cases hstep
      | hedgeStarts => cases hstep
      | origin event =>
          obtain ⟨request', hevent, hfetch⟩ := Option.bind_eq_some_iff.mp hstep
          obtain rfl := Option.some.inj hfetch
          unfold continueOrigin
          dsimp only
          split_ifs with hdelivered hfailed
          · trivial
          · trivial
          · rcases OriginRequest.OverBy.step h hevent with hstage | hstage | hover
            · exact absurd hstage hdelivered
            · exact absurd hstage hfailed
            · exact hover
  | obtained => exact absurd (Or.inl rfl) (not_settled_of_step hstep)
  | failed => exact absurd (Or.inr rfl) (not_settled_of_step hstep)

theorem fetchAssignedSegment_settlesBy (peer : Option Peer)
    (hlimit : clock + ((if peer.isSome then options.attemptLimit else 0) + originLimit) ≤ limit) :
    (fetchAssignedSegment options clock peer).SettlesBy options limit clock := by
  cases peer with
  | none =>
      refine OriginRequest.start_overBy (le_trans ?_ hlimit)
      exact add_le_add le_rfl le_add_self
  | some peer =>
      refine ⟨clock + options.attemptLimit, PeerAttempt.start_overBy le_rfl, ?_⟩
      rw [add_assoc]
      exact hlimit

end SegmentFetch

end Settling

/-! ## The deadline in a batch -/

/-- By `bound` the origin has been asked for a segment, or verified bytes of it were there. -/
def BatchFetch.MetBy (segmentId : SegmentId) (bound : ℚ≥0) (batch : BatchFetch) : Prop :=
  ∃ task ∈ batch.settled ++ batch.wave, task.1 = segmentId ∧ task.2.MetBy bound

namespace BatchFetch

/-- What a wave that starts finds in flight fits: a fetch of the segment itself still asks the
origin by `bound`, and one of another segment ends early enough for the waves that follow, if the
segment's is among them. -/
def JoinsFit (options : FetcherOptions) (bound : ℚ≥0) (segmentId : SegmentId) (clock : ℚ≥0)
    (batch : BatchFetch) : Prop :=
  ∀ next waiting, batch.waiting = next :: waiting → ∀ assignment ∈ next, ∀ fetch,
    batch.existing assignment = some fetch →
      (assignment.segmentId = segmentId → fetch.AsksBy options bound clock) ∧
      ((∃ wave ∈ waiting, ∃ later ∈ wave, later.segmentId = segmentId) →
        ∃ taskEnd, fetch.SettlesBy options taskEnd clock ∧
          FitsBy options bound taskEnd segmentId waiting)

/-- The condition on a step of a batch. -/
def StartsFit (options : FetcherOptions) (bound : ℚ≥0) (segmentId : SegmentId)
    (t : Timed BatchFetch) : TimedLabel BatchEvent → Prop
  | .event .startWave => t.state.JoinsFit options bound segmentId t.clock
  | _ => True

/-- The segment's task is in time, or all tasks of the wave leave it the time it needs. -/
structure InTime (options : FetcherOptions) (segmentId : SegmentId) (bound clock : ℚ≥0)
    (batch : BatchFetch) : Prop where
  limits : (∃ task ∈ batch.wave, task.1 = segmentId ∧ task.2.AsksBy options bound clock) ∨
    (∃ task ∈ batch.settled, task.1 = segmentId ∧ task.2.MetBy bound) ∨
    ((∃ start, clock ≤ start ∧ FitsBy options bound start segmentId batch.waiting) ∧
      ∀ task ∈ batch.wave, ∃ taskEnd, task.2.SettlesBy options taskEnd clock ∧
        FitsBy options bound taskEnd segmentId batch.waiting)
  past : batch.settledAt ≤ clock

variable {options : FetcherOptions} {peers : OrderedMap PeerId Peer} {segmentId : SegmentId}
  {bound clock clock' : ℚ≥0} {batch batch' : BatchFetch}

/-- A task that starts is cached, waits for a fetch in flight or fetches by itself. -/
theorem startTask_cases (options : FetcherOptions) (peers : OrderedMap PeerId Peer)
    (clock : ℚ≥0) (batch : BatchFetch) (assignment : BatchAssignment) :
    (startTask options peers clock batch assignment).2 = ⟨.obtained, none, some clock⟩ ∨
    batch.existing assignment = some (startTask options peers clock batch assignment).2 ∨
    (startTask options peers clock batch assignment).2 =
      fetchAssignedSegment options clock (assignment.peerId.bind peers.get?) := by
  unfold startTask existing
  dsimp only
  split_ifs
  · exact Or.inl rfl
  · cases batch.inFlightSegments.get? assignment.segmentId with
    | none => exact Or.inr (Or.inr rfl)
    | some fetch => exact Or.inr (Or.inl rfl)

theorem isSome_of_bind {assignment : BatchAssignment}
    (hpeer : (assignment.peerId.bind peers.get?).isSome) : assignment.peerId.isSome := by
  cases h : assignment.peerId with
  | none =>
      rw [h] at hpeer
      cases hpeer
  | some peerId => rfl

theorem startTask_asksBy {assignment : BatchAssignment} {start : ℚ≥0} (hclock : clock ≤ start)
    (hfits : start + peerLimit options assignment ≤ bound)
    (hjoins : ∀ fetch, batch.existing assignment = some fetch → fetch.AsksBy options bound clock) :
    (startTask options peers clock batch assignment).2.AsksBy options bound clock := by
  have hbound : clock ≤ bound := hclock.trans (le_self_add.trans hfits)
  rcases startTask_cases options peers clock batch assignment with hstart | hexisting | hstart
  · rw [hstart]
    exact Or.inr ⟨clock, rfl, hbound⟩
  · exact hjoins _ hexisting
  · rw [hstart]
    refine fetchAssignedSegment_asksBy options _ hbound fun hpeer => ?_
    rw [peerLimit, if_pos (isSome_of_bind hpeer)] at hfits
    exact (add_le_add hclock le_rfl).trans hfits

/-- A task that starts leaves the waves that follow the time they need. -/
theorem startTask_settlesBy {wave : List BatchAssignment} {waiting : List (List BatchAssignment)}
    {assignment : BatchAssignment} (hmem : assignment ∈ wave) {start : ℚ≥0} (hclock : clock ≤ start)
    (hfits : FitsBy options bound (start + waveLimit options wave) segmentId waiting)
    (hjoins : ∀ fetch, batch.existing assignment = some fetch →
      ∃ taskEnd, fetch.SettlesBy options taskEnd clock ∧
        FitsBy options bound taskEnd segmentId waiting) :
    ∃ taskEnd, (startTask options peers clock batch assignment).2.SettlesBy options taskEnd clock ∧
      FitsBy options bound taskEnd segmentId waiting := by
  rcases startTask_cases options peers clock batch assignment with hstart | hexisting | hstart
  · rw [hstart]
    exact ⟨_, trivial, hfits⟩
  · exact hjoins _ hexisting
  · rw [hstart]
    refine ⟨_, SegmentFetch.fetchAssignedSegment_settlesBy _ ?_, hfits⟩
    refine add_le_add hclock (le_trans (add_le_add ?_ le_rfl) (le_waveLimit options hmem))
    unfold peerLimit
    split_ifs with hpeer hassigned
    · exact le_rfl
    · exact absurd (isSome_of_bind hpeer) hassigned
    · exact bot_le
    · exact le_rfl

/-- A wave that starts keeps a batch in time. -/
theorem InTime.startWave (h : batch.InTime options segmentId bound clock)
    {next : List BatchAssignment} {waiting : List (List BatchAssignment)}
    (hwaiting : batch.waiting = next :: waiting)
    (hjoins : batch.JoinsFit options bound segmentId clock)
    (hsettled : ∀ task ∈ batch.wave, task.2.Settled) :
    (batch.startWave options peers clock next waiting).InTime options segmentId bound clock := by
  refine ⟨?_, h.past⟩
  rcases h.limits with ⟨task, htask, hid, hasks⟩ | ⟨task, htask, hid, hmet⟩ | ⟨hstart, -⟩
  · exact Or.inr (Or.inl ⟨task, List.mem_append_right _ htask, hid, hasks.metBy (hsettled task htask)⟩)
  · exact Or.inr (Or.inl ⟨task, List.mem_append_left _ htask, hid, hmet⟩)
  · obtain ⟨start, hclock, latest, hmem, hlatest⟩ := hstart
    rw [hwaiting] at hmem
    rcases List.mem_append.mp hmem with hnext | hlater
    · -- The segment's own task starts.
      obtain ⟨assignment, hassignment, heq⟩ := List.mem_map.mp hnext
      obtain ⟨rfl, rfl⟩ := Prod.mk.inj heq
      refine Or.inl ⟨startTask options peers clock batch assignment,
        List.mem_map_of_mem hassignment, rfl, startTask_asksBy hclock hlatest fun fetch hfetch => ?_⟩
      exact (hjoins next waiting hwaiting assignment hassignment fetch hfetch).1 rfl
    · have hfits : FitsBy options bound (start + waveLimit options next) segmentId waiting :=
        ⟨latest, hlater, hlatest⟩
      refine Or.inr (Or.inr ⟨⟨_, hclock.trans le_self_add, hfits⟩, fun task htask => ?_⟩)
      obtain ⟨assignment, hassignment, rfl⟩ := List.mem_map.mp htask
      refine startTask_settlesBy hassignment hclock hfits fun fetch hfetch => ?_
      exact (hjoins next waiting hwaiting assignment hassignment fetch hfetch).2 hfits.later

theorem InTime.le_or_metBy (h : batch.InTime options segmentId bound clock) :
    clock ≤ bound ∨ batch.MetBy segmentId bound := by
  rcases h.limits with ⟨task, htask, hid, hasks⟩ | ⟨task, htask, hid, hmet⟩ | ⟨hstart, -⟩
  · rcases hasks.le_or_metBy with hclock | hmet
    · exact Or.inl hclock
    · exact Or.inr ⟨task, List.mem_append_right _ htask, hid, hmet⟩
  · exact Or.inr ⟨task, List.mem_append_left _ htask, hid, hmet⟩
  · obtain ⟨start, hclock, hfits⟩ := hstart
    exact Or.inl (hclock.trans hfits.start_le)

theorem InTime.elapse (h : batch.InTime options segmentId bound clock) (hle : clock ≤ clock')
    (htimers : ∀ due ∈ batch.timers, clock' ≤ due) :
    batch.InTime options segmentId bound clock' := by
  have htask (task : SegmentId × SegmentFetch) (hmem : task ∈ batch.wave) :
      ∀ due ∈ task.2.timers, clock' ≤ due :=
    fun due hdue => htimers due (List.mem_append_left _ (List.mem_append_left _
      (List.mem_flatMap.mpr ⟨task, hmem, hdue⟩)))
  refine ⟨?_, h.past.trans hle⟩
  rcases h.limits with ⟨task, hmem, hid, hasks⟩ | hmet | ⟨⟨start, hclock, hfits⟩, hwave⟩
  · exact Or.inl ⟨task, hmem, hid, hasks.elapse (htask task hmem)⟩
  · exact Or.inr (Or.inl hmet)
  · have hwave' : ∀ task ∈ batch.wave, ∃ taskEnd, task.2.SettlesBy options taskEnd clock' ∧
        FitsBy options bound taskEnd segmentId batch.waiting := by
      intro task hmem
      obtain ⟨taskEnd, hsettles, hfits⟩ := hwave task hmem
      exact ⟨taskEnd, hsettles.elapse (htask task hmem), hfits⟩
    refine Or.inr (Or.inr ⟨?_, hwave'⟩)
    by_cases hsettled : ∀ task ∈ batch.wave, task.2.Settled
    · -- The next wave starts before time passes.
      have hwaiting : batch.waiting ≠ [] := by
        rintro hnil
        obtain ⟨wave, hmem, -⟩ := hfits.later
        rw [hnil] at hmem
        cases hmem
      have hnow : clock' ≤ batch.settledAt := by
        refine htimers _ (List.mem_append_right _ ?_)
        rw [if_pos ⟨hwaiting, hsettled⟩]
        exact List.mem_singleton_self _
      exact ⟨start, (hnow.trans h.past).trans hclock, hfits⟩
    · obtain ⟨task, hrest⟩ := not_forall.mp hsettled
      obtain ⟨hmem, hopen⟩ := Classical.not_imp.mp hrest
      obtain ⟨taskEnd, hsettles, hfits⟩ := hwave' task hmem
      exact ⟨taskEnd, hsettles.clock_le hopen, hfits⟩

/-- A task that goes on keeps a batch in time. -/
theorem InTime.task (h : batch.InTime options segmentId bound clock) {index : ℕ}
    {task : SegmentId × SegmentFetch} (htask : batch.wave[index]? = some task)
    {event : FetchEvent} {fetch : SegmentFetch} (hfetch : task.2.step options clock event = some fetch)
    (cache : List SegmentId) :
    InTime options segmentId bound clock { batch with
      cache := cache
      wave := batch.wave.set index (task.1, fetch)
      settledAt := clock } := by
  have hmem : task ∈ batch.wave := List.mem_of_getElem? htask
  have hnew : (task.1, fetch) ∈ batch.wave.set index (task.1, fetch) :=
    List.mem_set (List.getElem?_eq_some_iff.mp htask).1 _
  refine ⟨?_, le_rfl⟩
  rcases h.limits with ⟨target, htarget, hid, hasks⟩ | hmet | ⟨hstart, hwave⟩
  · -- The segment's own task, if it is the one that moved, is in time as it moves.
    obtain ⟨i, hi⟩ := List.mem_iff_getElem?.mp htarget
    by_cases hindex : index = i
    · obtain rfl := hindex
      obtain rfl : task = target := Option.some.inj (htask.symm.trans hi)
      exact Or.inl ⟨(task.1, fetch), hnew, hid, hasks.step hfetch⟩
    · refine Or.inl ⟨target, List.mem_of_getElem? (?_ : _[i]? = _), hid, hasks⟩
      rw [List.getElem?_set_ne hindex]
      exact hi
  · exact Or.inr (Or.inl hmet)
  · refine Or.inr (Or.inr ⟨hstart, fun other hother => ?_⟩)
    rcases List.mem_or_eq_of_mem_set hother with hold | rfl
    · exact hwave other hold
    · obtain ⟨taskEnd, hsettles, hfits⟩ := hwave task hmem
      exact ⟨taskEnd, hsettles.step hfetch, hfits⟩

/-- Every event leaves a batch in time, if what its waves find in flight fits. -/
theorem InTime.step {e : BatchEvent} (h : batch.InTime options segmentId bound clock)
    (hok : StartsFit options bound segmentId ⟨clock, batch⟩ (.event e))
    (hstep : batch.step options peers clock e = some batch') :
    batch'.InTime options segmentId bound clock := by
  cases e with
  | startWave =>
      simp only [BatchFetch.step] at hstep
      split at hstep
      · cases hstep
      · rename_i next waiting hwaiting
        split_ifs at hstep with hsettled
        obtain rfl := Option.some.inj hstep
        exact h.startWave hwaiting hok hsettled
  | task index event =>
      obtain ⟨task, htask, hrest⟩ := Option.bind_eq_some_iff.mp hstep
      obtain ⟨fetch, hfetch, hbatch⟩ := Option.bind_eq_some_iff.mp hrest
      obtain rfl := Option.some.inj hbatch
      exact h.task htask hfetch _
  | otherStarts other fetch =>
      simp only [BatchFetch.step] at hstep
      split_ifs at hstep
      obtain rfl := Option.some.inj hstep
      exact ⟨h.limits, h.past⟩
  | other other event =>
      obtain ⟨fetch, -, hrest⟩ := Option.bind_eq_some_iff.mp hstep
      obtain ⟨fetch', -, hbatch⟩ := Option.bind_eq_some_iff.mp hrest
      obtain rfl := Option.some.inj hbatch
      exact ⟨h.limits, h.past⟩
  | otherAborted other =>
      obtain rfl := Option.some.inj hstep
      exact ⟨h.limits, h.past⟩
  | evicts dropped =>
      obtain rfl := Option.some.inj hstep
      exact ⟨h.limits, h.past⟩

end BatchFetch

section Guarantee

variable {σ : Type*} (options : FetcherOptions)
  (baseScheduler : SegmentScheduler σ SegmentSchedulingPlan)

/-- **The deadline guarantee, as far as it goes.** A single fetch keeps the deadline it was
planned with where its plan has no peer, is hedged, or leaves an attempt all of its own limits; in
a batch a segment keeps it where the limits of the waves before and of its own attempt do, and what
its waves find in flight fits too. -/
theorem fetch_meets_deadline (s : DeadlineAwareScheduler.State σ) (segmentName : SegmentId)
    {segmentsAhead : JsNumber} {deadline : SegmentDeadline}
    (hdeadline : options.syntheticDeadline segmentsAhead = some deadline) {slackMs : ℚ}
    (hslack : deadline.slackMs = .finite slackMs) :
    (∀ peers, PeerPhaseFits options (latestOriginStart options slackMs s)
        (options.planPeers baseScheduler peers segmentName segmentsAhead s) →
      ∀ t, (segmentFetching options (fetchUncachedSegment options baseScheduler peers segmentName
          segmentsAhead s)).Reachable t →
        t.clock ≤ latestOriginStart options slackMs s ∨
          t.state.MetBy (latestOriginStart options slackMs s)) ∧
    ∀ requests peers cache inFlightSegments assignments,
      planAssignments options baseScheduler requests peers s = .ok assignments →
      ⟨segmentName, some segmentsAhead⟩ ∈ prioritizedRequests requests →
      FitsBy options (latestOriginStart options slackMs s) 0 segmentName
        (executionWaves options.maxParallel assignments) →
      ∀ t, (batchFetching options peers (fetchSegments options cache inFlightSegments
          assignments)).toTransitionSystem.Reachable (BatchFetch.StartsFit options
            (latestOriginStart options slackMs s) segmentName) t →
        t.clock ≤ latestOriginStart options slackMs s ∨
          t.state.MetBy segmentName (latestOriginStart options slackMs s) := by
  constructor
  · intro peers hfits t hr
    refine (hr.invariant (fun clock fetch => fetch.AsksBy options
      (latestOriginStart options slackMs s) clock) ?_ ?_ ?_).le_or_metBy
    · intro fetch hfetch
      obtain rfl : fetch = _ := hfetch
      exact fetchUncachedSegment_asksBy options baseScheduler peers segmentName hdeadline hslack s
        hfits
    · intro clock fetch e fetch' hasks hstep
      exact hasks.step hstep
    · intro clock clock' fetch hasks _ htimers
      exact hasks.elapse htimers
  · intro requests peers cache inFlightSegments assignments _ _ hfits t hr
    refine (TransitionSystem.Reachable.invariant hr (fun t => t.state.InTime options segmentName
      (latestOriginStart options slackMs s) t.clock) ?_ ?_).le_or_metBy
    · rintro ⟨clock, batch⟩ ⟨hclock, hbatch⟩
      obtain rfl : clock = 0 := hclock
      obtain rfl : batch = _ := hbatch
      refine ⟨Or.inr (Or.inr ⟨⟨0, le_rfl, hfits⟩, fun task htask => ?_⟩), le_rfl⟩
      cases htask
    · refine TimedSystem.step_invariant _ (fun clock batch => BatchFetch.InTime options segmentName
        (latestOriginStart options slackMs s) clock batch) ?_ ?_
      · intro clock batch e batch' hinTime hok hstep
        exact hinTime.step hok hstep
      · intro clock duration batch hinTime _ htimers
        exact hinTime.elapse le_self_add htimers

end Guarantee

/-! ### Fetches that miss it -/

/-- A fetcher without a transport manager, with the default limits. -/
def plainFetcher : FetcherOptions where
  selfPeerId := "self"
  p2pTimeoutMs := DEFAULT_P2P_TIMEOUT_MS
  maxParallel := 3
  maxParallel_pos := by decide
  transportManager := none
  segmentDurationMs := some ⟨850, by norm_num⟩
  settings := .default

/-- The same with the manager the client makes. -/
def managedFetcher : FetcherOptions :=
  { plainFetcher with
    transportManager :=
      some ⟨true, DEFAULT_WEBRTC_REQUEST_TIMEOUT_MS, false, DEFAULT_P2P_TIMEOUT_MS, false⟩ }

def stallingPeer : Peer :=
  ⟨⟨"near", "http://10.0.0.7:8080", none, none⟩, ["segment-7.ts"], 0, 0, 20,
    clampUnitInterval 1, clampUnitInterval 1⟩

def defaultBase : SegmentScheduler WeightedScoreScheduler SegmentSchedulingPlan :=
  WeightedScoreScheduler.scheduler DEFAULT_URGENT_THRESHOLD_SEGMENTS

def freshScheduler : DeadlineAwareScheduler.State WeightedScoreScheduler :=
  ⟨.empty, .default⟩

def tenAhead : SegmentDeadline := syntheticDeadline (.finite 10) (.finite 850)

/-- Another request tries the stalling peer since the batch was planned. -/
def stallingInFlight : OrderedMap SegmentId SegmentFetch :=
  OrderedMap.set ∅ "segment-7.ts" (fetchAssignedSegment plainFetcher 0 (some stallingPeer))

/-- Ten segments ahead there is time for the timeout and for a hash request, also where the batch
waits for a fetch that is in flight. -/
theorem fetch_meets_deadline_tenAhead :
    (segmentFetching plainFetcher (fetchUncachedSegment plainFetcher defaultBase [stallingPeer]
      "segment-7.ts" (.finite 10) freshScheduler)).Reachable
        ⟨2000, ⟨.fetchingOrigin (.requesting 12000), some 2000, none⟩⟩ ∧
    ((2000 : ℚ≥0) ≤ latestOriginStart plainFetcher 8500 freshScheduler ∨
      SegmentFetch.MetBy (latestOriginStart plainFetcher 8500 freshScheduler)
        ⟨.fetchingOrigin (.requesting 12000), some 2000, none⟩) ∧
    ((2000 : ℚ≥0) ≤ latestOriginStart plainFetcher 8500 freshScheduler ∨
      BatchFetch.MetBy "segment-7.ts" (latestOriginStart plainFetcher 8500 freshScheduler)
        ⟨[], ∅, [("segment-7.ts", ⟨.fetchingOrigin (.requesting 12000), some 2000, none⟩)], [], [],
          2000⟩) := by
  have hdeadline : plainFetcher.syntheticDeadline (.finite 10) = some tenAhead := rfl
  have hslack : tenAhead.slackMs = .finite 8500 := by decide +kernel
  have hfits : plainFetcher.attemptLimit ≤ latestOriginStart plainFetcher 8500 freshScheduler := by
    decide +kernel
  have h := fetch_meets_deadline plainFetcher defaultBase freshScheduler "segment-7.ts" hdeadline
    hslack
  have hsingle : (segmentFetching plainFetcher (fetchUncachedSegment plainFetcher defaultBase
      [stallingPeer] "segment-7.ts" (.finite 10) freshScheduler)).toTransitionSystem.run
      ⟨0, fetchUncachedSegment plainFetcher defaultBase [stallingPeer] "segment-7.ts" (.finite 10)
        freshScheduler⟩ [.elapse 2000, .event (.attempt .aborts)] =
      some ⟨2000, ⟨.fetchingOrigin (.requesting 12000), some 2000, none⟩⟩ := by
    decide +kernel
  have hbatch : (batchFetching plainFetcher [stallingPeer] (fetchSegments plainFetcher []
      stallingInFlight [⟨"segment-7.ts", some "near", .singlePeer⟩])).toTransitionSystem.run
      ⟨0, fetchSegments plainFetcher [] stallingInFlight [⟨"segment-7.ts", some "near", .singlePeer⟩]⟩
      [.event .startWave, .elapse 2000, .event (.task 0 (.attempt .aborts))] =
      some ⟨2000, ⟨[], ∅, [("segment-7.ts",
        ⟨.fetchingOrigin (.requesting 12000), some 2000, none⟩)], [], [], 2000⟩⟩ := by
    decide +kernel
  have hreached := TimedSystem.reachable_of_run rfl hsingle
  have hinit : (batchFetching plainFetcher [stallingPeer] (fetchSegments plainFetcher []
      stallingInFlight [⟨"segment-7.ts", some "near", .singlePeer⟩])).toTransitionSystem.init
      ⟨0, fetchSegments plainFetcher [] stallingInFlight
        [⟨"segment-7.ts", some "near", .singlePeer⟩]⟩ := ⟨rfl, rfl⟩
  have hjoins : BatchFetch.JoinsFit plainFetcher (latestOriginStart plainFetcher 8500 freshScheduler)
      "segment-7.ts" 0 (fetchSegments plainFetcher [] stallingInFlight
        [⟨"segment-7.ts", some "near", .singlePeer⟩]) := by
    intro next waiting hwaiting assignment hmem fetch hfetch
    obtain ⟨rfl, rfl⟩ := List.cons.inj ((show [[⟨"segment-7.ts", some "near", .singlePeer⟩]]
      = next :: waiting from hwaiting))
    obtain rfl := List.mem_singleton.mp hmem
    obtain rfl := Option.some.inj hfetch
    refine ⟨fun _ => fetchAssignedSegment_asksBy plainFetcher _ bot_le fun _ => ?_, ?_⟩
    · rw [zero_add]
      exact hfits
    · rintro ⟨wave, hwave, -⟩
      cases hwave
  refine ⟨hreached, h.1 [stallingPeer] (Or.inr (Or.inr hfits)) _ hreached, ?_⟩
  refine h.2 [⟨"segment-7.ts", some (.finite 10)⟩] [stallingPeer] [] stallingInFlight
    [⟨"segment-7.ts", some "near", .singlePeer⟩] (by decide +kernel) (by decide +kernel) ?_ _
    (TransitionSystem.Reachable.append_run (.init hinit) ?_ hbatch)
  · refine ⟨plainFetcher.attemptLimit, ?_, hfits⟩
    exact List.mem_singleton.mpr (by decide +kernel)
  · exact ⟨hjoins, fun _ _ => ⟨trivial, fun _ _ => ⟨trivial, fun _ _ => trivial⟩⟩⟩

/-- A segment two ahead, with 1700 ms of slack, must go to the origin within a second. Its plan is
hedged, but in a batch the origin is not asked before the stalling peer times out. Eight ahead the
plan is relaxed, and with a transport manager nothing ends the attempt before WebRTC gives up. -/
theorem fetch_misses_deadline :
    ((plainFetcher.planPeers defaultBase [stallingPeer] "segment-7.ts" (.finite 2)
        freshScheduler).2.execution =
      some ⟨.hedgedOrigin, some 1000, some 1000, some 1700⟩ ∧
    latestOriginStart plainFetcher 1700 freshScheduler = 1000 ∧
    ∃ assignments, planAssignments plainFetcher defaultBase [⟨"segment-7.ts", some (.finite 2)⟩]
        [stallingPeer] freshScheduler = .ok assignments ∧
      ∃ t, (batchFetching plainFetcher [stallingPeer]
          (fetchSegments plainFetcher [] ∅ assignments)).Reachable t ∧
        t.clock = 2000 ∧ ¬t.state.MetBy "segment-7.ts" 1000) ∧
    latestOriginStart managedFetcher 6800 freshScheduler = 6100 ∧
    ∃ t, (segmentFetching managedFetcher (fetchUncachedSegment managedFetcher defaultBase
        [stallingPeer] "segment-7.ts" (.finite 8) freshScheduler)).Reachable t ∧
      t.clock = 15000 ∧ ¬t.state.MetBy 6100 := by
  refine ⟨⟨by decide +kernel, by decide +kernel, [⟨"segment-7.ts", some "near", .singlePeer⟩],
    by decide +kernel, ?_⟩, by decide +kernel, ?_⟩
  · have hrun : (batchFetching plainFetcher [stallingPeer] (fetchSegments plainFetcher [] ∅
        [⟨"segment-7.ts", some "near", .singlePeer⟩])).toTransitionSystem.run
        ⟨0, fetchSegments plainFetcher [] ∅ [⟨"segment-7.ts", some "near", .singlePeer⟩]⟩
        [.event .startWave, .elapse 2000, .event (.task 0 (.attempt .aborts))] =
        some ⟨2000, ⟨[], ∅, [("segment-7.ts",
          ⟨.fetchingOrigin (.requesting 12000), some 2000, none⟩)], [], [], 2000⟩⟩ := by
      decide +kernel
    refine ⟨_, TimedSystem.reachable_of_run rfl hrun, rfl, ?_⟩
    rintro ⟨task, htask, -, hmet⟩
    obtain rfl := List.mem_singleton.mp htask
    rcases hmet with ⟨started, hstarted, hbound⟩ | ⟨delivered, hdelivered, -⟩
    · obtain rfl := Option.some.inj hstarted
      exact absurd hbound (by decide +kernel)
    · cases hdelivered
  · have hrun : (segmentFetching managedFetcher (fetchUncachedSegment managedFetcher defaultBase
        [stallingPeer] "segment-7.ts" (.finite 8) freshScheduler)).toTransitionSystem.run
        ⟨0, fetchUncachedSegment managedFetcher defaultBase [stallingPeer] "segment-7.ts"
          (.finite 8) freshScheduler⟩ [.elapse 15000] =
        some ⟨15000, ⟨.tryingPeer ⟨.webRtc 15000, none, false⟩, none, none⟩⟩ := by
      decide +kernel
    refine ⟨_, TimedSystem.reachable_of_run rfl hrun, rfl, ?_⟩
    rintro (⟨started, hstarted, -⟩ | ⟨delivered, hdelivered, -⟩)
    · cases hstarted
    · cases hdelivered

/-- The next segment is planned to go to the origin at once. Its task waits for the fetch in flight
all the same, and nothing has happened when the stalling peer times out. -/
theorem joined_fetch_misses_deadline :
    latestOriginStart plainFetcher 0 freshScheduler = 0 ∧
    ∃ assignments, planAssignments plainFetcher defaultBase [⟨"segment-7.ts", some (.finite 0)⟩]
        [stallingPeer] freshScheduler = .ok assignments ∧
      FitsBy plainFetcher 0 0 "segment-7.ts" (executionWaves plainFetcher.maxParallel assignments) ∧
      ∃ t, (batchFetching plainFetcher [stallingPeer]
          (fetchSegments plainFetcher [] stallingInFlight assignments)).Reachable t ∧
        t.clock = 2000 ∧ ¬t.state.MetBy "segment-7.ts" 0 := by
  have hrun : (batchFetching plainFetcher [stallingPeer] (fetchSegments plainFetcher []
      stallingInFlight [⟨"segment-7.ts", none, .origin⟩])).toTransitionSystem.run
      ⟨0, fetchSegments plainFetcher [] stallingInFlight [⟨"segment-7.ts", none, .origin⟩]⟩
      [.event .startWave, .elapse 2000] =
      some ⟨2000, ⟨[], ∅, [("segment-7.ts",
        ⟨.tryingPeer ⟨.direct, some 2000, false⟩, none, none⟩)], [], [], 0⟩⟩ := by
    decide +kernel
  refine ⟨by decide +kernel, [⟨"segment-7.ts", none, .origin⟩], by decide +kernel,
    ⟨0, List.mem_singleton.mpr (by decide +kernel), le_rfl⟩, _,
    TimedSystem.reachable_of_run rfl hrun, rfl, ?_⟩
  rintro ⟨task, htask, -, hmet⟩
  obtain rfl := List.mem_singleton.mp htask
  rcases hmet with ⟨started, hstarted, -⟩ | ⟨delivered, hdelivered, -⟩
  · cases hstarted
  · cases hdelivered

end Node

end OpenStreamGrid
