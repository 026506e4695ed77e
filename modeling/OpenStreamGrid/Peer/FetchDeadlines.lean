import OpenStreamGrid.Peer.SegmentFetching

/-!
# Deadlines of a fetch

An attempt without a budget ends by the limits of its parts: the timers of the
requests it makes and of the hash requests that check what came. A hedged fetch asks
the origin by its delay whatever the attempt does. So a fetch keeps its deadline
where its plan is hedged, or the limits of an attempt happen to fit.
-/

namespace OpenStreamGrid

namespace Node

/-! ## How long an attempt without a budget can take -/

def hashLimit (verifier : Bool) : ℚ≥0 := if verifier then HASH_REQUEST_TIMEOUT_MS else 0

namespace TransportManager

/-- After the HTTP request: the adapter's check and the fetcher's. -/
def httpCheckLimit (manager : TransportManager) : ℚ≥0 :=
  hashLimit manager.httpVerifier + HASH_REQUEST_TIMEOUT_MS

def httpLimit (manager : TransportManager) : ℚ≥0 :=
  manager.httpTimeoutMs + manager.httpCheckLimit

/-- After the WebRTC request: its check and a fallback to HTTP. -/
def webRtcCheckLimit (manager : TransportManager) : ℚ≥0 :=
  hashLimit manager.webRtcVerifier + manager.httpLimit

end TransportManager

/-- The longest an attempt can take by the limits of its own parts. -/
def FetcherOptions.attemptLimit (options : FetcherOptions) : ℚ≥0 :=
  match options.transportManager with
  | none => options.p2pTimeoutMs + HASH_REQUEST_TIMEOUT_MS
  | some manager =>
      if manager.webRtcEnabled then manager.webRtcTimeoutMs + manager.webRtcCheckLimit
      else manager.httpLimit

/-- An attempt is under way, and the limits of what is left of it end by `limit`. -/
def PeerAttempt.OverBy (options : FetcherOptions) (limit clock : ℚ≥0) (attempt : PeerAttempt) :
    Prop :=
  match attempt.stage with
  | .direct =>
      ∃ due, attempt.abortAt = some due ∧ clock ≤ due ∧ due + HASH_REQUEST_TIMEOUT_MS ≤ limit
  | .webRtc timeoutAt => clock ≤ timeoutAt ∧ ∃ manager, options.transportManager = some manager ∧
      timeoutAt + manager.webRtcCheckLimit ≤ limit
  | .verifyingWebRtc timeoutAt => clock ≤ timeoutAt ∧ ∃ manager,
      options.transportManager = some manager ∧ timeoutAt + manager.httpLimit ≤ limit
  | .http timeoutAt => clock ≤ timeoutAt ∧ ∃ manager, options.transportManager = some manager ∧
      timeoutAt + manager.httpCheckLimit ≤ limit
  | .verifyingHttp timeoutAt => clock ≤ timeoutAt ∧ timeoutAt + HASH_REQUEST_TIMEOUT_MS ≤ limit
  | .verifying timeoutAt => clock ≤ timeoutAt ∧ timeoutAt ≤ limit
  | .delivered | .failed => False

section Limits

variable {options : FetcherOptions} {limit clock clock' : ℚ≥0}

/-- What can follow an instant that is not over can follow the present. -/
theorem add_le_of_due {due rest rest' : ℚ≥0} (hclock : clock ≤ due) (hdue : due + rest ≤ limit)
    (hrest : rest' ≤ rest) : clock + rest' ≤ limit :=
  (add_le_add hclock hrest).trans hdue

namespace PeerAttempt

variable {attempt attempt' : PeerAttempt}

theorem OverBy.clock_le (h : attempt.OverBy options limit clock) : clock ≤ limit := by
  obtain ⟨stage, abortAt, aborted⟩ := attempt
  cases stage with
  | direct =>
      obtain ⟨due, -, hclock, hdue⟩ := h
      exact hclock.trans (le_self_add.trans hdue)
  | webRtc timeoutAt =>
      obtain ⟨hclock, manager, -, hdue⟩ := h
      exact hclock.trans (le_self_add.trans hdue)
  | verifyingWebRtc timeoutAt =>
      obtain ⟨hclock, manager, -, hdue⟩ := h
      exact hclock.trans (le_self_add.trans hdue)
  | http timeoutAt =>
      obtain ⟨hclock, manager, -, hdue⟩ := h
      exact hclock.trans (le_self_add.trans hdue)
  | verifyingHttp timeoutAt => exact h.1.trans (le_self_add.trans h.2)
  | verifying timeoutAt => exact h.1.trans h.2
  | delivered => exact h.elim
  | failed => exact h.elim

/-- Time that passes no timer of an attempt is within its limits. -/
theorem OverBy.elapse (h : attempt.OverBy options limit clock)
    (htimers : ∀ due ∈ attempt.timers, clock' ≤ due) : attempt.OverBy options limit clock' := by
  obtain ⟨stage, abortAt, aborted⟩ := attempt
  cases stage with
  | direct =>
      obtain ⟨due, rfl, -, hdue⟩ := h
      exact ⟨due, rfl, htimers due (List.mem_singleton_self due), hdue⟩
  | webRtc timeoutAt => exact ⟨htimers timeoutAt List.mem_cons_self, h.2⟩
  | verifyingWebRtc timeoutAt => exact ⟨htimers timeoutAt List.mem_cons_self, h.2⟩
  | http timeoutAt => exact ⟨htimers timeoutAt List.mem_cons_self, h.2⟩
  | verifyingHttp timeoutAt => exact ⟨htimers timeoutAt List.mem_cons_self, h.2⟩
  | verifying timeoutAt => exact ⟨htimers timeoutAt List.mem_cons_self, h.2⟩
  | delivered => exact h
  | failed => exact h

/-- An attempt without a budget starts within its limits. -/
theorem start_overBy (hlimit : clock + options.attemptLimit ≤ limit) :
    (start options clock none).OverBy options limit clock := by
  unfold start
  unfold FetcherOptions.attemptLimit at hlimit
  cases hmanager : options.transportManager with
  | none =>
      rw [hmanager] at hlimit
      refine ⟨_, rfl, le_self_add, ?_⟩
      rw [add_assoc]
      exact hlimit
  | some manager =>
      rw [hmanager] at hlimit
      dsimp only at hlimit ⊢
      split_ifs at hlimit ⊢
      · refine ⟨le_self_add, manager, hmanager, ?_⟩
        rw [add_assoc]
        exact hlimit
      · refine ⟨le_self_add, manager, hmanager, ?_⟩
        rw [add_assoc]
        exact hlimit

theorem verify_overBy (hlimit : clock + HASH_REQUEST_TIMEOUT_MS ≤ limit) :
    (attempt.verify clock).OverBy options limit clock :=
  ⟨le_self_add, hlimit⟩

theorem fallBack_overBy {manager : TransportManager}
    (hmanager : options.transportManager = some manager)
    (hlimit : clock + manager.httpLimit ≤ limit) :
    (attempt.fallBack manager clock).stage = .failed ∨
      (attempt.fallBack manager clock).OverBy options limit clock := by
  unfold fallBack
  split_ifs
  · exact Or.inl rfl
  · refine Or.inr ⟨le_self_add, manager, hmanager, ?_⟩
    rw [add_assoc]
    exact hlimit

theorem abort_overBy (h : attempt.OverBy options limit clock) :
    attempt.abort.stage = .failed ∨ attempt.abort.OverBy options limit clock := by
  obtain ⟨stage, abortAt, aborted⟩ := attempt
  cases stage with
  | direct => exact Or.inl rfl
  | webRtc timeoutAt => exact Or.inl rfl
  | http timeoutAt => exact Or.inl rfl
  | verifyingWebRtc timeoutAt => exact Or.inr h
  | verifyingHttp timeoutAt => exact Or.inr h
  | verifying timeoutAt => exact Or.inr h
  | delivered => exact h.elim
  | failed => exact h.elim

theorem OverBy.aborts (h : attempt.OverBy options limit clock)
    (hstep : attempt.step options clock .aborts = some attempt') :
    attempt'.stage = .failed ∨ attempt'.OverBy options limit clock := by
  obtain ⟨due, -, hrest⟩ := Option.bind_eq_some_iff.mp hstep
  split_ifs at hrest
  obtain rfl := Option.some.inj hrest
  exact abort_overBy h

/-- Every event of an attempt ends it or leaves it within its limits. -/
theorem OverBy.step {e : AttemptEvent} (h : attempt.OverBy options limit clock)
    (hstep : attempt.step options clock e = some attempt') :
    attempt'.stage = .delivered ∨ attempt'.stage = .failed ∨
      attempt'.OverBy options limit clock := by
  obtain ⟨stage, abortAt, aborted⟩ := attempt
  cases e with
  | aborts => exact Or.inr (h.aborts hstep)
  | answers =>
      cases stage with
      | direct =>
          obtain ⟨due, -, hclock, hdue⟩ := h
          obtain rfl := Option.some.inj hstep
          exact Or.inr (Or.inr (verify_overBy (add_le_of_due hclock hdue le_rfl)))
      | webRtc timeoutAt =>
          obtain ⟨hclock, manager, hmanager, hdue⟩ := h
          obtain ⟨manager', hmanager', hattempt⟩ := Option.bind_eq_some_iff.mp hstep
          obtain rfl : manager = manager' := Option.some.inj (hmanager.symm.trans hmanager')
          obtain rfl := Option.some.inj hattempt
          split_ifs with hverifier
          · refine Or.inr (Or.inr ⟨le_self_add, manager, hmanager, ?_⟩)
            rw [add_assoc]
            refine add_le_of_due hclock hdue (le_of_eq ?_)
            rw [TransportManager.webRtcCheckLimit, hashLimit, if_pos hverifier]
          · refine Or.inr (Or.inr (verify_overBy (add_le_of_due hclock hdue ?_)))
            exact (le_add_self.trans le_add_self).trans le_add_self
      | http timeoutAt =>
          obtain ⟨hclock, manager, hmanager, hdue⟩ := h
          obtain ⟨manager', hmanager', hattempt⟩ := Option.bind_eq_some_iff.mp hstep
          obtain rfl : manager = manager' := Option.some.inj (hmanager.symm.trans hmanager')
          obtain rfl := Option.some.inj hattempt
          split_ifs with hverifier
          · refine Or.inr (Or.inr ⟨le_self_add, ?_⟩)
            rw [add_assoc]
            refine add_le_of_due hclock hdue (le_of_eq ?_)
            rw [TransportManager.httpCheckLimit, hashLimit, if_pos hverifier]
          · exact Or.inr (Or.inr (verify_overBy (add_le_of_due hclock hdue le_add_self)))
      | _ => cases hstep
  | fails =>
      cases stage with
      | direct =>
          obtain rfl := Option.some.inj hstep
          exact Or.inr (Or.inl rfl)
      | webRtc timeoutAt =>
          obtain ⟨hclock, manager, hmanager, hdue⟩ := h
          obtain ⟨manager', hmanager', hattempt⟩ := Option.bind_eq_some_iff.mp hstep
          obtain rfl : manager = manager' := Option.some.inj (hmanager.symm.trans hmanager')
          obtain rfl := Option.some.inj hattempt
          exact Or.inr (fallBack_overBy hmanager (add_le_of_due hclock hdue le_add_self))
      | http timeoutAt =>
          obtain rfl := Option.some.inj hstep
          exact Or.inr (Or.inl rfl)
      | _ => cases hstep
  | timesOut =>
      cases stage with
      | webRtc timeoutAt =>
          obtain ⟨hclock, manager, hmanager, hdue⟩ := h
          obtain ⟨manager', hmanager', hattempt⟩ := Option.bind_eq_some_iff.mp hstep
          obtain rfl : manager = manager' := Option.some.inj (hmanager.symm.trans hmanager')
          split_ifs at hattempt
          obtain rfl := Option.some.inj hattempt
          exact Or.inr (fallBack_overBy hmanager (add_le_of_due hclock hdue le_add_self))
      | http timeoutAt =>
          change (if timeoutAt ≤ clock then some _ else none) = some attempt' at hstep
          split_ifs at hstep
          obtain rfl := Option.some.inj hstep
          exact Or.inr (Or.inl rfl)
      | _ => cases hstep
  | hashMatches =>
      cases stage with
      | verifyingWebRtc timeoutAt =>
          obtain ⟨hclock, manager, hmanager, hdue⟩ := h
          obtain rfl := Option.some.inj hstep
          refine Or.inr (Or.inr (verify_overBy (add_le_of_due hclock hdue ?_)))
          exact le_add_self.trans le_add_self
      | verifyingHttp timeoutAt =>
          obtain rfl := Option.some.inj hstep
          exact Or.inr (Or.inr (verify_overBy (add_le_of_due h.1 h.2 le_rfl)))
      | verifying timeoutAt =>
          obtain rfl := Option.some.inj hstep
          exact Or.inl rfl
      | _ => cases hstep
  | hashFails =>
      cases stage with
      | verifyingWebRtc timeoutAt =>
          obtain ⟨hclock, manager, hmanager, hdue⟩ := h
          obtain ⟨manager', hmanager', hattempt⟩ := Option.bind_eq_some_iff.mp hstep
          obtain rfl : manager = manager' := Option.some.inj (hmanager.symm.trans hmanager')
          obtain rfl := Option.some.inj hattempt
          exact Or.inr (fallBack_overBy hmanager (add_le_of_due hclock hdue le_rfl))
      | verifyingHttp timeoutAt =>
          obtain rfl := Option.some.inj hstep
          exact Or.inr (Or.inl rfl)
      | verifying timeoutAt =>
          obtain rfl := Option.some.inj hstep
          exact Or.inr (Or.inl rfl)
      | _ => cases hstep

end PeerAttempt

end Limits

/-! ## The deadline of a fetch -/

/-- By `bound` the origin has been asked or verified bytes were there. -/
def SegmentFetch.MetBy (bound : ℚ≥0) (fetch : SegmentFetch) : Prop :=
  (∃ started, fetch.originStartedAt = some started ∧ started ≤ bound) ∨
    ∃ delivered, fetch.bytesAt = some delivered ∧ delivered ≤ bound

/-- While neither has happened, an attempt without a budget is over in time, or a hedge is due. -/
def SegmentFetch.AsksBy (options : FetcherOptions) (bound clock : ℚ≥0) (fetch : SegmentFetch) :
    Prop :=
  match fetch.stage with
  | .tryingPeer attempt => attempt.OverBy options bound clock
  | .hedging _ (.waiting startAt) => clock ≤ startAt ∧ startAt ≤ bound
  | .hedging _ (.started _) | .fetchingOrigin _ =>
      ∃ started, fetch.originStartedAt = some started ∧ started ≤ bound
  | .obtained | .failed => fetch.MetBy bound

namespace SegmentFetch

variable {options : FetcherOptions} {bound clock clock' : ℚ≥0} {fetch fetch' : SegmentFetch}

theorem AsksBy.le_or_metBy (h : fetch.AsksBy options bound clock) :
    clock ≤ bound ∨ fetch.MetBy bound := by
  obtain ⟨stage, originStartedAt, bytesAt⟩ := fetch
  cases stage with
  | tryingPeer attempt => exact Or.inl (PeerAttempt.OverBy.clock_le h)
  | hedging attempt hedge =>
      cases hedge with
      | waiting startAt => exact Or.inl (h.1.trans h.2)
      | started request => exact Or.inr (Or.inl h)
  | fetchingOrigin request => exact Or.inr (Or.inl h)
  | obtained => exact Or.inr h
  | failed => exact Or.inr h

theorem AsksBy.metBy (h : fetch.AsksBy options bound clock) (hsettled : fetch.Settled) :
    fetch.MetBy bound := by
  obtain ⟨stage, originStartedAt, bytesAt⟩ := fetch
  rcases hsettled with hstage | hstage
  · obtain rfl : stage = .obtained := hstage
    exact h
  · obtain rfl : stage = .failed := hstage
    exact h

/-- Time that passes no timer leaves a fetch in time. -/
theorem AsksBy.elapse (h : fetch.AsksBy options bound clock)
    (htimers : ∀ due ∈ fetch.timers, clock' ≤ due) : fetch.AsksBy options bound clock' := by
  obtain ⟨stage, originStartedAt, bytesAt⟩ := fetch
  cases stage with
  | tryingPeer attempt => exact PeerAttempt.OverBy.elapse h htimers
  | hedging attempt hedge =>
      cases hedge with
      | waiting startAt => exact ⟨htimers startAt List.mem_cons_self, h.2⟩
      | started request => exact h
  | fetchingOrigin request => exact h
  | obtained => exact h
  | failed => exact h

/-- However its attempt goes on, a fetch stays in time: what follows the attempt follows at
once. -/
theorem AsksBy.continueAttempt (h : fetch.AsksBy options bound clock) {attempt : PeerAttempt}
    (hattempt : ∀ before, fetch.stage = .tryingPeer before →
      before.OverBy options bound clock → attempt.stage = .delivered ∨ attempt.stage = .failed ∨
        attempt.OverBy options bound clock) :
    (fetch.continueAttempt clock attempt).AsksBy options bound clock := by
  obtain ⟨stage, originStartedAt, bytesAt⟩ := fetch
  unfold SegmentFetch.continueAttempt
  cases stage with
  | tryingPeer before =>
      have hclock : clock ≤ bound := PeerAttempt.OverBy.clock_le h
      dsimp only
      split_ifs with hdelivered hfailed
      · exact Or.inr ⟨clock, rfl, hclock⟩
      · exact ⟨clock, rfl, hclock⟩
      · rcases hattempt before rfl h with hstage | hstage | hover
        · exact absurd hstage hdelivered
        · exact absurd hstage hfailed
        · exact hover
  | hedging before hedge =>
      dsimp only
      cases hedge with
      | waiting startAt =>
          have hclock : clock ≤ bound := h.1.trans h.2
          split_ifs
          · exact Or.inr ⟨clock, rfl, hclock⟩
          · exact ⟨clock, rfl, hclock⟩
          · exact h
      | started request =>
          split_ifs
          · exact Or.inl h
          · cases request with
            | failed => exact Or.inl h
            | _ => exact h
          · exact h
  | fetchingOrigin request => exact h
  | obtained => exact h
  | failed => exact h

theorem AsksBy.continueOrigin (h : fetch.AsksBy options bound clock) {request : OriginRequest}
    (hrequest : fetch.request?.isSome) :
    (fetch.continueOrigin request).AsksBy options bound clock := by
  obtain ⟨stage, originStartedAt, bytesAt⟩ := fetch
  unfold SegmentFetch.continueOrigin
  cases stage with
  | hedging attempt hedge =>
      cases hedge with
      | waiting startAt => cases hrequest
      | started before =>
          dsimp only
          split_ifs
          · exact Or.inl h
          · exact Or.inl h
          · exact h
  | fetchingOrigin before =>
      dsimp only
      split_ifs
      · exact Or.inl h
      · exact Or.inl h
      · exact h
  | tryingPeer attempt => exact h
  | obtained => exact h
  | failed => exact h

/-- Every event leaves a fetch in time. -/
theorem AsksBy.step {e : FetchEvent} (h : fetch.AsksBy options bound clock)
    (hstep : fetch.step options clock e = some fetch') : fetch'.AsksBy options bound clock := by
  cases e with
  | attempt event =>
      obtain ⟨attempt, hattempt, hrest⟩ := Option.bind_eq_some_iff.mp hstep
      obtain ⟨attempt', hevent, hfetch⟩ := Option.bind_eq_some_iff.mp hrest
      obtain rfl := Option.some.inj hfetch
      refine h.continueAttempt fun before hstage hover => ?_
      obtain rfl : attempt = before := by
        unfold attempt? at hattempt
        rw [hstage] at hattempt
        exact (Option.some.inj hattempt).symm
      exact hover.step hevent
  | hedgeStarts =>
      obtain ⟨stage, originStartedAt, bytesAt⟩ := fetch
      unfold SegmentFetch.step at hstep
      cases stage with
      | hedging attempt hedge =>
          cases hedge with
          | waiting startAt =>
              dsimp only at hstep
              split_ifs at hstep
              obtain rfl := Option.some.inj hstep
              exact ⟨clock, rfl, h.1.trans h.2⟩
          | started request => cases hstep
      | _ => cases hstep
  | origin event =>
      obtain ⟨request, hrequest, hrest⟩ := Option.bind_eq_some_iff.mp hstep
      obtain ⟨request', -, hfetch⟩ := Option.bind_eq_some_iff.mp hrest
      obtain rfl := Option.some.inj hfetch
      exact h.continueOrigin (Option.isSome_of_mem hrequest)

end SegmentFetch

/-! ## Single fetches -/

section Single

variable {σ : Type*} (options : FetcherOptions)
  (baseScheduler : SegmentScheduler σ SegmentSchedulingPlan)

/-- The last moment to ask the origin, in the values of the plan: no earlier than now. -/
def latestOriginStart (slackMs : ℚ) (s : DeadlineAwareScheduler.State σ) : ℚ≥0 :=
  (max 0 (DeadlineAware.latestSafeOriginStartMs options.settings slackMs
    s.originLatencyEstimator.estimateMs)).toNNRat

/-- A plan without peers and a hedged plan keep to any bound; peers alone keep to the limits of an
attempt. -/
def PeerPhaseFits (bound : ℚ≥0) (planned : List Peer × SegmentSchedulingPlan) : Prop :=
  planned.1 = [] ∨ planned.2.execution.map SegmentExecutionHints.strategy = some .hedgedOrigin ∨
    options.attemptLimit ≤ bound

theorem planPeers_plan (peers : List Peer) (segmentName : SegmentId) (segmentsAhead : JsNumber)
    (s : DeadlineAwareScheduler.State σ) :
    (options.planPeers baseScheduler peers segmentName segmentsAhead s).2 =
      (planSegmentSafely (options.scheduler baseScheduler)
        (options.planningContext peers segmentName segmentsAhead) s).1.1 := by
  unfold FetcherOptions.planPeers
  dsimp only
  split_ifs
  · rfl
  · rfl

theorem planPeers_origin {peers : List Peer} {segmentName : SegmentId} {segmentsAhead : JsNumber}
    {s : DeadlineAwareScheduler.State σ}
    (hmode : (options.planPeers baseScheduler peers segmentName segmentsAhead s).2.mode = .origin) :
    (options.planPeers baseScheduler peers segmentName segmentsAhead s).1 = [] := by
  rw [planPeers_plan] at hmode
  unfold FetcherOptions.planPeers
  dsimp only
  rw [if_pos hmode]

/-- The plan of a fetch with a finite slack is timely for it. -/
theorem planPeers_timely (peers : List Peer) (segmentName : SegmentId) {segmentsAhead : JsNumber}
    {deadline : SegmentDeadline} (hdeadline : options.syntheticDeadline segmentsAhead = some deadline)
    {slackMs : ℚ} (hslack : deadline.slackMs = .finite slackMs)
    (s : DeadlineAwareScheduler.State σ) :
    DeadlineAware.Timely slackMs
      (DeadlineAware.latestSafeOriginStartMs options.settings slackMs
        s.originLatencyEstimator.estimateMs)
      (options.planPeers baseScheduler peers segmentName segmentsAhead s).2 := by
  have hcontext : (options.planningContext peers segmentName segmentsAhead).deadline
      = some deadline := hdeadline
  have hplan : (options.scheduler baseScheduler).planSegment
      (options.planningContext peers segmentName segmentsAhead) s =
      (.ok (DeadlineAwareScheduler.planSegment baseScheduler options.settings
          (options.planningContext peers segmentName segmentsAhead) s).1,
        (DeadlineAwareScheduler.planSegment baseScheduler options.settings
          (options.planningContext peers segmentName segmentsAhead) s).2) := rfl
  rw [planPeers_plan]
  exact DeadlineAware.Timely.planSegmentSafely hplan
    (DeadlineAwareScheduler.planSegment_timely baseScheduler options.settings hcontext hslack s)

theorem fetchAssignedSegment_asksBy {bound clock : ℚ≥0} (peer : Option Peer)
    (hclock : clock ≤ bound)
    (hlimit : peer.isSome → clock + options.attemptLimit ≤ bound) :
    (fetchAssignedSegment options clock peer).AsksBy options bound clock := by
  cases peer with
  | none => exact ⟨clock, rfl, hclock⟩
  | some peer => exact PeerAttempt.start_overBy (hlimit rfl)

/-- A fetch starts in time where its plan fits. -/
theorem fetchUncachedSegment_asksBy (peers : List Peer) (segmentName : SegmentId)
    {segmentsAhead : JsNumber} {deadline : SegmentDeadline}
    (hdeadline : options.syntheticDeadline segmentsAhead = some deadline)
    {slackMs : ℚ} (hslack : deadline.slackMs = .finite slackMs)
    (s : DeadlineAwareScheduler.State σ)
    (hfits : PeerPhaseFits options (latestOriginStart options slackMs s)
      (options.planPeers baseScheduler peers segmentName segmentsAhead s)) :
    (fetchUncachedSegment options baseScheduler peers segmentName segmentsAhead s).AsksBy options
      (latestOriginStart options slackMs s) 0 := by
  have htimely := planPeers_timely options baseScheduler peers segmentName hdeadline hslack s
  have horigin : (options.planPeers baseScheduler peers segmentName segmentsAhead s).2.mode
      = .origin → _ := planPeers_origin options baseScheduler
  unfold fetchUncachedSegment
  generalize options.planPeers baseScheduler peers segmentName segmentsAhead s = planned
    at htimely horigin hfits ⊢
  obtain ⟨selected, plan⟩ := planned
  dsimp only at htimely horigin ⊢
  cases hhead : selected.head? with
  | none => exact fetchAssignedSegment_asksBy options none bot_le (fun hpeer => by cases hpeer)
  | some peer =>
      have hpeers : selected ≠ [] := by
        rintro rfl
        cases hhead
      cases htimely with
      | origin hmode => exact absurd (horigin hmode) hpeers
      | relaxed _ hexecution =>
          rw [hexecution]
          refine fetchAssignedSegment_asksBy options (some peer) bot_le fun _ => ?_
          rcases hfits with hnone | hhedged | hlimit
          · exact absurd hnone hpeers
          · dsimp only at hhedged
            rw [hexecution] at hhedged
            cases hhedged
          · rw [zero_add]
            exact hlimit
      | hedged _ hdelay hexecution =>
          rw [hexecution]
          exact ⟨bot_le, NNRat.toNNRat_mono hdelay⟩

end Single

end Node

end OpenStreamGrid
