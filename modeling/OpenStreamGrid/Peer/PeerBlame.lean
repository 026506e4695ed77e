import OpenStreamGrid.Peer.FetchStatistics

/-!
# Whom the Node fetcher blames

A peer is reported, and observed as failing, when its attempt fails without being
cancelled. The failure is the peer's own unless its complete answer was there and
nothing was found against it: then the hash to compare with was missing.
-/

namespace OpenStreamGrid

namespace HybridSegmentFetcher

namespace PeerAttempt

variable {options : Node.FetcherOptions} {attempt attempt' : PeerAttempt}

/-- Nothing is known of a peer before its first complete answer. -/
def Sound (attempt : PeerAttempt) : Prop :=
  match attempt.stage with
  | .connecting | .receiving | .webRtc => attempt.conduct = .silent
  | _ => True

/-- A failure for want of a hash: the last check finds none, or the second try fails after a
first one whose bytes could not be checked. -/
def LacksHash (attempt : PeerAttempt) : AttemptEvent → Prop
  | .hashUnavailable _ =>
      attempt.conduct = .delivered ∧ ∀ data, attempt.stage ≠ .verifyingWebRtc data
  | .fails _ => attempt.conduct = .delivered ∧ attempt.stage = .http
  | _ => False

/-- A failed attempt that is not cancelled, of a peer with nothing against it. -/
def Wronged (attempt : PeerAttempt) : Prop :=
  attempt.failure? ≠ none ∧ attempt.conduct = .delivered

theorem sound_start (peerId : PeerId) (attemptBudgetMs : Option ℚ) (aborted : Bool) :
    (start options peerId attemptBudgetMs aborted).Sound := by
  unfold Sound
  split
  · rfl
  · rfl
  · rfl
  · trivial

theorem Sound.cancel (h : attempt.Sound) : attempt.cancel.Sound := by
  unfold PeerAttempt.cancel
  split_ifs
  · exact h
  · exact h

theorem not_wronged_of_running (h : attempt.running = true) : ¬attempt.Wronged :=
  fun hwronged => hwronged.1 (failure?_of_running h)

theorem wronged_cancel : attempt.cancel.Wronged ↔ attempt.Wronged := by
  by_cases hrunning : attempt.running = true
  · have hcancelled : attempt.cancel.running = true := attempt.running_cancel.trans hrunning
    exact iff_of_false (not_wronged_of_running hcancelled) (not_wronged_of_running hrunning)
  · rw [cancel_of_not_running hrunning]

theorem wronged_fail {error : Option FailureReason} :
    (attempt.fail error).Wronged ↔ attempt.cancelled = false ∧ attempt.conduct = .delivered := by
  unfold Wronged
  rw [@failure?_of_failed (attempt.fail error) error rfl]
  refine and_congr_left fun _ => ?_
  show (if attempt.cancelled then none else some error) ≠ none ↔ _
  cases attempt.cancelled with
  | false => exact iff_of_true (fun hfalse => by cases hfalse) rfl
  | true => exact iff_of_false (fun hfalse => hfalse rfl) fun hfalse => by cases hfalse

theorem not_wronged_refute {error : Option FailureReason} :
    ¬(attempt.refute.fail error).Wronged := fun hwronged => by cases hwronged.2

theorem not_wronged_of_silent {error : Option FailureReason} (h : attempt.conduct = .silent) :
    ¬(attempt.fail error).Wronged := by
  intro hwronged
  cases h.symm.trans hwronged.2

theorem running_fallBack : attempt.fallBack.running = true := rfl

theorem sound_fail (error : Option FailureReason) : (attempt.fail error).Sound := trivial

theorem Sound.silent {stage : AttemptStage} (h : attempt.Sound) (hstage : attempt.stage = stage)
    (hearly : stage = .connecting ∨ stage = .receiving ∨ stage = .webRtc) :
    attempt.conduct = .silent := by
  unfold Sound at h
  rw [hstage] at h
  rcases hearly with rfl | rfl | rfl
  · exact h
  · exact h
  · exact h

/-- What a step makes of the peer's conduct. -/
theorem conduct_of_step (h : attempt.Sound) {event : AttemptEvent}
    (hstep : attempt.step options event = some attempt') :
    attempt'.Sound ∧ (attempt'.Wronged ↔ attempt.cancelled = false ∧ attempt.LacksHash event) := by
  cases event with
  | responds =>
      simp only [step] at hstep
      split at hstep
      · rename_i hstage
        split_ifs at hstep
        obtain rfl := Option.some.inj hstep
        exact ⟨h.silent hstage (Or.inl rfl),
          iff_of_false (not_wronged_of_running rfl) fun hlacks => hlacks.2⟩
      · cases hstep
  | answers data =>
      simp only [step] at hstep
      split at hstep
      · split_ifs at hstep
        obtain rfl := Option.some.inj hstep
        exact ⟨trivial, iff_of_false (not_wronged_of_running rfl) fun hlacks => hlacks.2⟩
      · split_ifs at hstep
        · obtain rfl := Option.some.inj hstep
          exact ⟨trivial, iff_of_false (not_wronged_of_running rfl) fun hlacks => hlacks.2⟩
        · obtain rfl := Option.some.inj hstep
          exact ⟨trivial, iff_of_false (not_wronged_of_running rfl) fun hlacks => hlacks.2⟩
      · split_ifs at hstep
        · obtain rfl := Option.some.inj hstep
          exact ⟨trivial, iff_of_false (not_wronged_of_running rfl) fun hlacks => hlacks.2⟩
        · obtain rfl := Option.some.inj hstep
          exact ⟨trivial, iff_of_false (not_wronged_of_running rfl) fun hlacks => hlacks.2⟩
      · cases hstep
  | httpError status =>
      simp only [step] at hstep
      split at hstep
      · split_ifs at hstep
        obtain rfl := Option.some.inj hstep
        exact ⟨sound_fail _, iff_of_false not_wronged_refute fun hlacks => hlacks.2⟩
      · split_ifs at hstep
        obtain rfl := Option.some.inj hstep
        exact ⟨sound_fail _, iff_of_false not_wronged_refute fun hlacks => hlacks.2⟩
      · cases hstep
  | fails message =>
      simp only [step] at hstep
      split at hstep
      · rename_i hstage
        obtain rfl := Option.some.inj hstep
        refine ⟨sound_fail _, iff_of_false (not_wronged_of_silent (h.silent hstage (Or.inl rfl))) ?_⟩
        rintro ⟨-, -, hhttp⟩
        cases hstage.symm.trans hhttp
      · rename_i hstage
        obtain rfl := Option.some.inj hstep
        have hsilent := h.silent hstage (Or.inr (Or.inl rfl))
        refine ⟨sound_fail _, iff_of_false (not_wronged_of_silent hsilent) ?_⟩
        rintro ⟨-, -, hhttp⟩
        cases hstage.symm.trans hhttp
      · rename_i hstage
        obtain rfl := Option.some.inj hstep
        refine ⟨trivial, iff_of_false (not_wronged_of_running running_fallBack) ?_⟩
        rintro ⟨-, -, hhttp⟩
        cases hstage.symm.trans hhttp
      · rename_i hstage
        obtain rfl := Option.some.inj hstep
        exact ⟨sound_fail _, wronged_fail.trans
          (and_congr_right fun _ => ⟨fun hdelivered => ⟨hdelivered, hstage⟩, And.left⟩)⟩
      · cases hstep
  | timesOut =>
      simp only [step] at hstep
      split_ifs at hstep with henabled
      obtain rfl := Option.some.inj hstep
      exact ⟨h, iff_of_false (not_wronged_of_running henabled.2) fun hlacks => hlacks.2⟩
  | hashMatches =>
      simp only [step] at hstep
      split at hstep
      · obtain rfl := Option.some.inj hstep
        exact ⟨trivial, iff_of_false (not_wronged_of_running rfl) fun hlacks => hlacks.2⟩
      · obtain rfl := Option.some.inj hstep
        exact ⟨trivial, iff_of_false (not_wronged_of_running rfl) fun hlacks => hlacks.2⟩
      · obtain rfl := Option.some.inj hstep
        exact ⟨trivial, iff_of_false (fun hwronged => hwronged.1 rfl) fun hlacks => hlacks.2⟩
      · cases hstep
  | hashDiffers =>
      simp only [step] at hstep
      split at hstep
      · obtain rfl := Option.some.inj hstep
        exact ⟨trivial, iff_of_false (not_wronged_of_running rfl) fun hlacks => hlacks.2⟩
      · obtain rfl := Option.some.inj hstep
        exact ⟨sound_fail _, iff_of_false not_wronged_refute fun hlacks => hlacks.2⟩
      · obtain rfl := Option.some.inj hstep
        exact ⟨sound_fail _, iff_of_false not_wronged_refute fun hlacks => hlacks.2⟩
      · cases hstep
  | hashUnavailable message =>
      -- the last check fails the attempt, an adapter's first one does not
      have hlast : (∀ data, attempt.stage ≠ .verifyingWebRtc data) → ∀ error,
          ((attempt.fail error).Wronged ↔
            attempt.cancelled = false ∧ attempt.LacksHash (.hashUnavailable message)) := by
        intro hnot error
        exact wronged_fail.trans
          (and_congr_right fun _ => ⟨fun hdelivered => ⟨hdelivered, hnot⟩, And.left⟩)
      simp only [step] at hstep
      split at hstep
      · rename_i data hstage
        obtain rfl := Option.some.inj hstep
        refine ⟨trivial, iff_of_false (not_wronged_of_running running_fallBack) ?_⟩
        rintro ⟨-, -, hnot⟩
        exact hnot data hstage
      · rename_i hstage
        obtain rfl := Option.some.inj hstep
        exact ⟨sound_fail _, hlast (fun data hfalse => by cases hstage.symm.trans hfalse) _⟩
      · rename_i hstage
        obtain rfl := Option.some.inj hstep
        exact ⟨sound_fail _, hlast (fun data hfalse => by cases hstage.symm.trans hfalse) _⟩
      · cases hstep

end PeerAttempt

/-! ## One fetch -/

namespace Fetch

variable {options : Node.FetcherOptions} {fetch fetch' : Fetch}

/-- The peer was asked, the asking was not cancelled, and the failure is its own. -/
def AtFault (fetch : Fetch) (peerId : PeerId) : Prop :=
  ∃ attempt, fetch.attempt = some attempt ∧ attempt.peerId = peerId ∧
    attempt.cancelled = false ∧ attempt.conduct ≠ .delivered

/-- Whom the tracker and the scheduler are told of as failing. -/
structure BlamesOwnFailures (fetch : Fetch) : Prop where
  reports : ∀ report ∈ fetch.reports, fetch.AtFault report.peerId
  observations : ∀ observation ∈ fetch.observations,
    observation.succeeded = false → fetch.AtFault observation.peerId

/-- No attempt of the fetch has failed with nothing against its peer. -/
def Fair (fetch : Fetch) : Prop :=
  ∀ attempt, fetch.attempt = some attempt → ¬attempt.Wronged

def Sound (fetch : Fetch) : Prop :=
  ∀ attempt, fetch.attempt = some attempt → attempt.Sound

theorem failure?_eq_some {failure : ReportedFailure} (h : fetch.failure? = some failure) :
    ∃ attempt, fetch.attempt = some attempt ∧ attempt.peerId = failure.peerId ∧
      attempt.cancelled = false ∧ attempt.failure? ≠ none := by
  unfold failure? at h
  rcases Option.bind_eq_some_iff.mp h with ⟨attempt, hattempt, hfailure⟩
  rcases Option.map_eq_some_iff.mp hfailure with ⟨error, herror, rfl⟩
  refine ⟨attempt, hattempt, rfl, ?_, fun hnone => by cases herror.symm.trans hnone⟩
  unfold PeerAttempt.failure? at herror
  split at herror
  · split_ifs at herror with hcancelled
    exact Bool.eq_false_iff.mpr hcancelled
  · cases herror

theorem Fair.atFault (h : fetch.Fair) {failure : ReportedFailure}
    (hfailure : fetch.failure? = some failure) : fetch.AtFault failure.peerId := by
  rcases failure?_eq_some hfailure with ⟨attempt, hattempt, hpeer, hcancelled, hfailed⟩
  exact ⟨attempt, hattempt, hpeer, hcancelled,
    fun hdelivered => h attempt hattempt ⟨hfailed, hdelivered⟩⟩

/-- What is told of a fetch is the failure of its attempt. -/
theorem Accounted.blamesOwnFailures_iff (h : fetch.Accounted) :
    fetch.BlamesOwnFailures ↔ fetch.Fair := by
  constructor
  · rintro hblames attempt hattempt ⟨hfailed, hdelivered⟩
    obtain ⟨error, herror⟩ := Option.ne_none_iff_exists'.mp hfailed
    have hfailure : fetch.failure? = some ⟨attempt.peerId, error.getD .connection⟩ := by
      rw [failure?_of_attempt hattempt, herror]
      rfl
    have hreport : (⟨attempt.peerId, error.getD .connection⟩ : ReportedFailure) ∈ fetch.reports := by
      rw [h.reports, hfailure]
      exact List.mem_singleton.mpr rfl
    rcases hblames.reports _ hreport with ⟨attempt', hsome, -, -, hfault⟩
    obtain rfl := Option.some.inj (hattempt.symm.trans hsome)
    exact hfault hdelivered
  · intro hfair
    refine ⟨fun report hreport => ?_, fun observation hobservation hfailed => ?_⟩
    · rw [h.reports, Option.mem_toList] at hreport
      exact hfair.atFault hreport
    · rw [h.observations] at hobservation
      rcases List.mem_append.mp hobservation with hfailure | hsuccess
      · rcases List.mem_map.mp hfailure with ⟨failure, hmem, rfl⟩
        exact hfair.atFault (Option.mem_toList.mp hmem)
      · -- the other observation is of a success
        rw [Option.mem_toList] at hsuccess
        rcases Option.bind_eq_some_iff.mp hsuccess with ⟨data, -, hobserved⟩
        rcases Option.map_eq_some_iff.mp hobserved with ⟨attempt, -, rfl⟩
        cases hfailed

/-! ### Steps -/

/-- What a step of the fetch makes of its attempt, when it is not a step of the attempt itself. -/
inductive AttemptEffect (options : Node.FetcherOptions) (fetch : Fetch) :
    Option PeerAttempt → Prop where
  | kept : AttemptEffect options fetch fetch.attempt
  | cancelled : AttemptEffect options fetch (fetch.attempt.map PeerAttempt.cancel)
  | started (peerId : PeerId) (attemptBudgetMs : Option ℚ) (hnone : fetch.attempt = none) :
      AttemptEffect options fetch
        (some (.start options peerId attemptBudgetMs fetch.aborted))

theorem attempt_originFails : fetch.originFails.attempt = fetch.attempt := by
  unfold originFails
  dsimp only
  split_ifs
  · rfl
  · rfl
  · rfl

theorem attemptEffect_originDelivers (data : List UInt8) :
    AttemptEffect options fetch (fetch.originDelivers data).attempt := by
  unfold originDelivers
  dsimp only
  split_ifs
  · exact .kept
  · exact .kept
  · exact .cancelled

theorem attemptEffect_of_originStep {event : OriginEvent}
    (hstep : fetch.originStep event = some fetch') :
    AttemptEffect options fetch fetch'.attempt := by
  unfold originStep at hstep
  split at hstep
  · split_ifs at hstep
    obtain rfl := Option.some.inj hstep
    exact .kept
  · obtain rfl := Option.some.inj hstep
    rw [attempt_originFails]
    exact .kept
  · obtain rfl := Option.some.inj hstep
    exact attemptEffect_originDelivers _
  · obtain rfl := Option.some.inj hstep
    rw [attempt_originFails]
    exact .kept
  · obtain rfl := Option.some.inj hstep
    rw [attempt_originFails]
    exact .kept
  · cases hstep

theorem attempt_startOrigin (fetch : Fetch) : fetch.startOrigin.attempt = fetch.attempt := rfl

theorem attempt_recordPeerFailure (fetch : Fetch) (peerId : PeerId)
    (error : Option FailureReason) :
    (fetch.recordPeerFailure peerId error).attempt = fetch.attempt := rfl

theorem attempt_peerFails (peerId : PeerId) (error : Option FailureReason) :
    (fetch.peerFails peerId error).attempt = fetch.attempt := by
  have hfailed := attempt_recordPeerFailure fetch peerId error
  unfold peerFails
  generalize fetch.recordPeerFailure peerId error = failed at hfailed ⊢
  dsimp only
  split_ifs
  · rfl
  · split
    · exact (attempt_startOrigin failed).trans hfailed
    · exact hfailed
    · exact hfailed
  · exact (attempt_startOrigin failed).trans hfailed

theorem attempt_peerDelivers (peerId : PeerId) (data : List UInt8) :
    (fetch.peerDelivers peerId data).attempt = fetch.attempt := by
  unfold peerDelivers
  split_ifs
  · rfl
  · rfl

theorem attempt_attemptGoes (attempt : PeerAttempt) :
    (fetch.attemptGoes attempt).attempt = some attempt := by
  unfold attemptGoes
  dsimp only
  split_ifs
  · rfl
  · split
    · exact attempt_peerDelivers _ _
    · exact attempt_peerFails _ _
    · rfl

theorem attempt_of_attempt_step {event : AttemptEvent}
    (hstep : fetch.step options (.attempt event) = some fetch') :
    ∃ attempt attempt', fetch.attempt = some attempt ∧
      attempt.step options event = some attempt' ∧ fetch'.attempt = some attempt' := by
  simp only [Fetch.step] at hstep
  obtain ⟨attempt, hattempt, hstep⟩ := Option.bind_eq_some_iff.mp hstep
  obtain ⟨attempt', hgoes, hstep⟩ := Option.bind_eq_some_iff.mp hstep
  obtain rfl := Option.some.inj hstep
  exact ⟨attempt, attempt', hattempt, hgoes, attempt_attemptGoes attempt'⟩

theorem attemptEffect_of_step (h : fetch.Accounted) {event : FetchEvent}
    (hother : ∀ attemptEvent, event ≠ .attempt attemptEvent)
    (hstep : fetch.step options event = some fetch') :
    AttemptEffect options fetch fetch'.attempt := by
  cases event with
  | peersListed peers plan =>
      simp only [Fetch.step] at hstep
      split_ifs at hstep with hdiscovering
      have hnone := (h.discovering hdiscovering).1
      split at hstep
      · obtain rfl := Option.some.inj hstep
        exact .kept
      · split at hstep
        · obtain rfl := Option.some.inj hstep
          exact .started _ _ hnone
        · obtain rfl := Option.some.inj hstep
          exact .started _ _ hnone
  | discoveryFails =>
      simp only [Fetch.step] at hstep
      split_ifs at hstep
      obtain rfl := Option.some.inj hstep
      exact .kept
  | attempt attemptEvent => exact absurd rfl (hother attemptEvent)
  | hedgeDelayEnds =>
      simp only [Fetch.step] at hstep
      split_ifs at hstep
      obtain rfl := Option.some.inj hstep
      exact .kept
  | hedgeAborted =>
      simp only [Fetch.step] at hstep
      split_ifs at hstep
      obtain rfl := Option.some.inj hstep
      exact .kept
  | origin event => exact attemptEffect_of_originStep hstep

namespace AttemptEffect

theorem sound (heffect : AttemptEffect options fetch fetch'.attempt) (h : fetch.Sound) :
    fetch'.Sound := by
  intro attempt hattempt
  generalize fetch'.attempt = result at heffect hattempt
  cases heffect with
  | kept => exact h attempt hattempt
  | cancelled =>
      rcases Option.map_eq_some_iff.mp hattempt with ⟨attempt', hsome, rfl⟩
      exact (h attempt' hsome).cancel
  | started peerId attemptBudgetMs =>
      obtain rfl := Option.some.inj hattempt
      exact PeerAttempt.sound_start peerId attemptBudgetMs fetch.aborted

/-- Who has been wronged stays so, and nobody else is. -/
theorem fair_iff (heffect : AttemptEffect options fetch fetch'.attempt) :
    fetch'.Fair ↔ fetch.Fair := by
  unfold Fair
  generalize fetch'.attempt = result at heffect
  cases heffect with
  | kept => exact Iff.rfl
  | cancelled =>
      constructor
      · intro hfair attempt hattempt hwronged
        exact hfair attempt.cancel (congrArg (Option.map _) hattempt)
          (PeerAttempt.wronged_cancel.mpr hwronged)
      · intro hfair attempt hattempt hwronged
        rcases Option.map_eq_some_iff.mp hattempt with ⟨attempt', hsome, rfl⟩
        exact hfair attempt' hsome (PeerAttempt.wronged_cancel.mp hwronged)
  | started peerId attemptBudgetMs hnone =>
      constructor
      · intro _ attempt hattempt
        cases hnone.symm.trans hattempt
      · intro _ attempt hattempt
        obtain rfl := Option.some.inj hattempt
        exact PeerAttempt.not_wronged_of_running (start_running peerId attemptBudgetMs _)

end AttemptEffect

/-- A check that finds no hash ends the attempt for want of it. -/
def LacksHash (fetch : Fetch) : FetchEvent → Prop
  | .attempt event => ∃ attempt, fetch.attempt = some attempt ∧ attempt.cancelled = false ∧
      attempt.LacksHash event
  | _ => False

theorem sound_step (h : fetch.Accounted) (hsound : fetch.Sound) {event : FetchEvent}
    (hstep : fetch.step options event = some fetch') : fetch'.Sound := by
  by_cases hattempt : ∃ attemptEvent, event = .attempt attemptEvent
  · obtain ⟨attemptEvent, rfl⟩ := hattempt
    obtain ⟨attempt, attempt', hsome, hgoes, hsome'⟩ := attempt_of_attempt_step hstep
    intro other hother
    obtain rfl := Option.some.inj (hsome'.symm.trans hother)
    exact (PeerAttempt.conduct_of_step (hsound attempt hsome) hgoes).1
  · have hother : ∀ attemptEvent, event ≠ .attempt attemptEvent :=
      fun attemptEvent heq => hattempt ⟨attemptEvent, heq⟩
    exact (attemptEffect_of_step h hother hstep).sound hsound

/-- The step that wrongs a peer is the one that lacks the hash. -/
theorem fair_step_iff (h : fetch.Accounted) (hsound : fetch.Sound) {event : FetchEvent}
    (hstep : fetch.step options event = some fetch') :
    fetch'.Fair ↔ fetch.Fair ∧ ¬fetch.LacksHash event := by
  by_cases hattempt : ∃ attemptEvent, event = .attempt attemptEvent
  · obtain ⟨attemptEvent, rfl⟩ := hattempt
    obtain ⟨attempt, attempt', hsome, hgoes, hsome'⟩ := attempt_of_attempt_step hstep
    have hconduct := (PeerAttempt.conduct_of_step (hsound attempt hsome) hgoes).2
    have hfair : fetch.Fair := by
      intro other hother
      obtain rfl := Option.some.inj (hsome.symm.trans hother)
      exact PeerAttempt.not_wronged_of_running (PeerAttempt.goesOn_of_step hgoes).running
    constructor
    · intro hfair'
      refine ⟨hfair, ?_⟩
      rintro ⟨other, hother, hlacks⟩
      obtain rfl := Option.some.inj (hsome.symm.trans hother)
      exact hfair' attempt' hsome' (hconduct.mpr hlacks)
    · rintro ⟨-, hhash⟩ other hother hwronged
      obtain rfl := Option.some.inj (hsome'.symm.trans hother)
      exact hhash ⟨attempt, hsome, hconduct.mp hwronged⟩
  · have hother : ∀ attemptEvent, event ≠ .attempt attemptEvent :=
      fun attemptEvent heq => hattempt ⟨attemptEvent, heq⟩
    have hhash : ¬fetch.LacksHash event := by
      cases event with
      | attempt attemptEvent => exact absurd rfl (hother attemptEvent)
      | peersListed | discoveryFails | hedgeDelayEnds | hedgeAborted | origin => exact id
    rw [(attemptEffect_of_step h hother hstep).fair_iff]
    exact (and_iff_left hhash).symm

end Fetch

/-! ## All fetches -/

/-- One element of a list changes. -/
theorem forall_mem_set_iff {α : Type*} {P : α → Prop} {xs : List α} {i : ℕ} {x x' : α} {c : Prop}
    (hget : xs[i]? = some x) (hchange : P x' ↔ P x ∧ c) :
    (∀ y ∈ xs.set i x', P y) ↔ (∀ y ∈ xs, P y) ∧ c := by
  obtain ⟨hi, hgetElem⟩ := List.getElem?_eq_some_iff.mp hget
  have hnew : x' ∈ xs.set i x' := List.mem_iff_getElem.mpr
    ⟨i, by rwa [List.length_set], List.getElem_set_self _⟩
  constructor
  · intro hall
    obtain ⟨hx, hc⟩ := hchange.mp (hall x' hnew)
    refine ⟨fun y hy => ?_, hc⟩
    rcases List.mem_iff_getElem.mp hy with ⟨j, hj, rfl⟩
    by_cases hij : i = j
    · subst hij
      rwa [hgetElem]
    · apply hall
      exact List.mem_iff_getElem.mpr
        ⟨j, by rwa [List.length_set], List.getElem_set_ne hij _⟩
  · rintro ⟨hall, hc⟩ y hy
    rcases List.mem_or_eq_of_mem_set hy with hold | rfl
    · exact hall y hold
    · exact hchange.mpr ⟨hall x (List.mem_of_getElem? hget), hc⟩

namespace Fetcher

variable {options : Node.FetcherOptions} {fetcher fetcher' : Fetcher}

def Sound (fetcher : Fetcher) : Prop := ∀ fetch ∈ fetcher.fetches, fetch.Sound

def Fair (fetcher : Fetcher) : Prop := ∀ fetch ∈ fetcher.fetches, fetch.Fair

/-- The event ends no attempt for want of a hash: of an attempt that is not cancelled, the last
check of complete bytes finds one. -/
def HashAtHand (fetcher : Fetcher) : FetcherEvent → Prop
  | .fetch i event => ∀ fetch, fetcher.fetches[i]? = some fetch → ¬fetch.LacksHash event
  | _ => True

theorem sound_and_fair_new (aborted : Bool) (cached : Option (List UInt8)) {fetch : Fetch}
    (hnew : fetch = .fetchUncachedSegment aborted ∨
      ∃ peer, fetch = .fetchAssignedSegment options aborted peer) :
    ((cached.map Fetch.fromCache).getD fetch).Sound ∧
      ((cached.map Fetch.fromCache).getD fetch).Fair := by
  have hnone : ∀ {fetch : Fetch}, fetch.attempt = none → fetch.Sound ∧ fetch.Fair := by
    intro fetch hattempt
    constructor
    · intro attempt hsome
      cases hattempt.symm.trans hsome
    · intro attempt hsome
      cases hattempt.symm.trans hsome
  cases cached with
  | some data => exact hnone rfl
  | none =>
      rcases hnew with rfl | ⟨peer, rfl⟩
      · exact hnone rfl
      · cases peer with
        | none => exact hnone rfl
        | some peerId =>
            constructor
            · intro attempt hsome
              obtain rfl := Option.some.inj hsome
              exact PeerAttempt.sound_start peerId none aborted
            · intro attempt hsome
              obtain rfl := Option.some.inj hsome
              exact PeerAttempt.not_wronged_of_running (Fetch.start_running peerId none aborted)

theorem Sound.start (h : fetcher.Sound) {cached : Option (List UInt8)} {fetch : Fetch}
    (hnew : ((cached.map Fetch.fromCache).getD fetch).Sound) :
    Sound (fetcher.start cached fetch) := by
  intro other hother
  rcases List.mem_append.mp hother with hold | hlast
  · exact h other hold
  · rw [List.mem_singleton.mp hlast]
    exact hnew

theorem fair_start_iff {cached : Option (List UInt8)} {fetch : Fetch}
    (hnew : ((cached.map Fetch.fromCache).getD fetch).Fair) :
    Fair (fetcher.start cached fetch) ↔ fetcher.Fair := by
  constructor
  · intro hall other hother
    exact hall other (List.mem_append_left _ hother)
  · intro hall other hother
    rcases List.mem_append.mp hother with hold | hlast
    · exact hall other hold
    · rw [List.mem_singleton.mp hlast]
      exact hnew

/-- A step wrongs a peer just where it lacks the hash. -/
theorem fair_step_iff (h : fetcher.Accounted) (hsound : fetcher.Sound) {event : FetcherEvent}
    (hstep : fetcher.step options event = some fetcher') :
    fetcher'.Sound ∧ (fetcher'.Fair ↔ fetcher.Fair ∧ fetcher.HashAtHand event) := by
  cases event with
  | fetchSegment cached =>
      obtain rfl := Option.some.inj hstep
      obtain ⟨hsound', hfair'⟩ :=
        @sound_and_fair_new options fetcher.stopped cached _ (Or.inl rfl)
      exact ⟨hsound.start hsound', (fair_start_iff hfair').trans (and_iff_left trivial).symm⟩
  | fetchAssigned cached peer =>
      obtain rfl := Option.some.inj hstep
      obtain ⟨hsound', hfair'⟩ :=
        @sound_and_fair_new options fetcher.stopped cached _ (Or.inr ⟨peer, rfl⟩)
      exact ⟨hsound.start hsound', (fair_start_iff hfair').trans (and_iff_left trivial).symm⟩
  | abort i =>
      simp only [Fetcher.step] at hstep
      obtain ⟨fetch, hget, hstep⟩ := Option.bind_eq_some_iff.mp hstep
      split_ifs at hstep
      obtain rfl := Option.some.inj hstep
      have hmem := List.mem_of_getElem? hget
      have heffect : Fetch.AttemptEffect options fetch fetch.abort.attempt := .cancelled
      constructor
      · intro other hother
        rcases List.mem_or_eq_of_mem_set hother with hold | rfl
        · exact hsound other hold
        · exact heffect.sound (hsound fetch hmem)
      · exact forall_mem_set_iff hget (heffect.fair_iff.trans (and_iff_left trivial).symm)
  | stop =>
      simp only [Fetcher.step] at hstep
      split_ifs at hstep
      obtain rfl := Option.some.inj hstep
      have heffect : ∀ fetch : Fetch, Fetch.AttemptEffect options fetch fetch.abort.attempt :=
        fun _ => .cancelled
      constructor
      · intro other hother
        rcases List.mem_map.mp hother with ⟨fetch, hmem, rfl⟩
        exact (heffect fetch).sound (hsound fetch hmem)
      · refine Iff.trans ?_ (and_iff_left trivial).symm
        show (∀ other ∈ fetcher.fetches.map Fetch.abort, other.Fair) ↔ _
        rw [List.forall_mem_map]
        exact forall₂_congr fun fetch _ => (heffect fetch).fair_iff
  | fetch i event =>
      simp only [Fetcher.step] at hstep
      obtain ⟨fetch, hget, hstep⟩ := Option.bind_eq_some_iff.mp hstep
      obtain ⟨fetch', hfetch, hstep⟩ := Option.bind_eq_some_iff.mp hstep
      obtain rfl := Option.some.inj hstep
      have hmem := List.mem_of_getElem? hget
      have hhash : fetcher.HashAtHand (.fetch i event) ↔ ¬fetch.LacksHash event := by
        constructor
        · exact fun hall => hall fetch hget
        · intro hlacks other hother
          obtain rfl := Option.some.inj (hget.symm.trans hother)
          exact hlacks
      constructor
      · intro other hother
        rcases List.mem_or_eq_of_mem_set hother with hold | rfl
        · exact hsound other hold
        · exact Fetch.sound_step (h fetch hmem) (hsound fetch hmem) hfetch
      · rw [hhash]
        exact forall_mem_set_iff hget (Fetch.fair_step_iff (h fetch hmem) (hsound fetch hmem) hfetch)

/-- In every run, all peers reported or observed as failing have failed themselves just where no
attempt was ended for want of a hash. -/
theorem blames_own_failures_iff {events : List FetcherEvent}
    (hrun : (system options).run ⟨false, []⟩ events = some fetcher) :
    (∀ fetch ∈ fetcher.fetches, fetch.BlamesOwnFailures) ↔
      (system options).RunOk HashAtHand ⟨false, []⟩ events := by
  have hstart : ∀ fetch ∈ (⟨false, []⟩ : Fetcher).fetches, False :=
    fun _ hmem => absurd hmem List.not_mem_nil
  have hgood : (Accounted ⟨false, []⟩ ∧ Sound ⟨false, []⟩) ∧ Fair ⟨false, []⟩ :=
    ⟨⟨fun fetch hmem => (hstart fetch hmem).elim, fun fetch hmem => (hstart fetch hmem).elim⟩,
      fun fetch hmem => (hstart fetch hmem).elim⟩
  have hinv : ∀ (s : Fetcher) (e : FetcherEvent) (s' : Fetcher), s.Accounted ∧ s.Sound →
      (system options).step s e = some s' → s'.Accounted ∧ s'.Sound :=
    fun s e s' h hstep => ⟨h.1.step hstep, (fair_step_iff h.1 h.2 hstep).1⟩
  have hiff : ∀ {s : Fetcher}, s.Accounted →
      ((∀ fetch ∈ s.fetches, fetch.BlamesOwnFailures) ↔ s.Fair) :=
    fun h => forall₂_congr fun fetch hmem => (h fetch hmem).blamesOwnFailures_iff
  rcases @TransitionSystem.run_dichotomy _ _ (system options) HashAtHand
      (fun s => (s.Accounted ∧ s.Sound) ∧ s.Fair) (fun s => (s.Accounted ∧ s.Sound) ∧ ¬s.Fair)
      (fun s e s' h hok hstep => ⟨hinv s e s' h.1 hstep,
        (fair_step_iff h.1.1 h.1.2 hstep).2.mpr ⟨h.2, hok⟩⟩)
      (fun s e s' h hbad hstep => ⟨hinv s e s' h.1 hstep,
        fun hfair => hbad ((fair_step_iff h.1.1 h.1.2 hstep).2.mp hfair).2⟩)
      (fun s e s' h hstep => ⟨hinv s e s' h.1 hstep,
        fun hfair => h.2 ((fair_step_iff h.1.1 h.1.2 hstep).2.mp hfair).1⟩)
      events ⟨false, []⟩ fetcher hgood hrun with ⟨hok, hend, hfair⟩ | ⟨hbad, hend, hunfair⟩
  · exact iff_of_true ((hiff hend.1).mpr hfair) hok
  · exact iff_of_false (fun hblames => hunfair ((hiff hend.1).mp hblames)) hbad

theorem blames_own_failures_iff_missingOnPeer :
    (∀ fetch ∈ [servedByOrigin], fetch.BlamesOwnFailures) ↔
      (system Node.plainFetcher).RunOk HashAtHand ⟨false, []⟩ missingOnPeer :=
  blames_own_failures_iff run_missingOnPeer

/-- A peer delivers the segment, and its hash is not to be had: the peer is reported. -/
theorem missing_hash_blames_peer :
    ¬ ∀ fetcher, (system Node.plainFetcher).Reachable (fun _ _ => True) fetcher →
      ∀ fetch ∈ fetcher.fetches, fetch.BlamesOwnFailures := by
  intro h
  have hrun : (system Node.plainFetcher).run ⟨false, []⟩
      [.fetchAssigned none (some "near"), .fetch 0 (.attempt .responds),
        .fetch 0 (.attempt (.answers [7])),
        .fetch 0 (.attempt (.hashUnavailable "Failed to fetch hash for 'segment-7.ts': HTTP 404"))] =
      some ⟨false, [⟨false, false, false, false,
        some ⟨"near", .failed none, .delivered, true, false, false⟩, .requesting, none,
        countTraffic (countTraffic (countTraffic (countTraffic 0 .p2pRequests 1) .p2pFailures 1)
          .fallbacks 1) .originRequests 1,
        [⟨"near", false, 0, some .connection⟩], [⟨"near", .connection⟩]⟩]⟩ := by
    decide +kernel
  have hblames := h _ (TransitionSystem.reachable_of_run rfl hrun) _ List.mem_cons_self
  rcases hblames.reports _ List.mem_cons_self with ⟨attempt, hattempt, -, -, hfault⟩
  obtain rfl := Option.some.inj hattempt
  exact hfault rfl

end Fetcher

end HybridSegmentFetcher

end OpenStreamGrid
