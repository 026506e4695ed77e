import OpenStreamGrid.BroadcastLeases

/-!
# The broadcasts of an origin that is alive

While every registration is settled within less than the refresh interval, and the
tracker's clock is not too far ahead of the origin's, a sweep never meets a lease
that has run out: the record it finds was made in the last round or the one before.
-/

namespace OpenStreamGrid

namespace BroadcastLeases

variable {rules : LeaseRules} {D : ℕ} {clock later : ℚ≥0} {s s' : BroadcastLeases}
  {id : BroadcastId} {P Q : ℚ≥0 → Prop}

/-! ## Prompt runs -/

/-- When the registrations were made that are not settled. -/
def pending (s : BroadcastLeases) : List ℚ≥0 :=
  (match s.phase with
    | .starting created | .registering created => [created]
    | _ => []) ++
  (s.calls.values.map RegistrationCall.created ++ s.posts.map RegistrationPost.created)

/-- A registration is settled within a time, and none is refused for good. -/
def Prompt (D : ℕ) (t : Timed BroadcastLeases) : TimedLabel LeaseEvent → Prop
  | .elapse duration => ∀ created ∈ t.state.pending, t.clock + duration ≤ created + D
  | .event (.arrives _ (some statusCode)) => ¬ IsPermanent statusCode
  | .event _ => True

instance (D : ℕ) (t : Timed BroadcastLeases) : ∀ label, Decidable (Prompt D t label)
  | .elapse duration =>
      inferInstanceAs (Decidable (∀ created ∈ t.state.pending, t.clock + duration ≤ created + D))
  | .event (.arrives _ (some statusCode)) => inferInstanceAs (Decidable (¬ IsPermanent statusCode))
  | .event (.arrives _ none) => isTrue trivial
  | .event .start | .event .serverStarted | .event (.lost _) | .event (.answered _ _)
  | .event (.requestFails _ _) | .event (.timesOut _ _) | .event (.retries _) | .event .refresh
  | .event .shutdown | .event .crash | .event (.deleteArrives _) | .event .sweep
  | .event (.storeCall _) => isTrue trivial

theorem mem_pending_iff {created : ℚ≥0} : created ∈ s.pending ↔
    (s.phase = .starting created ∨ s.phase = .registering created) ∨
      (∃ k call, s.calls.get? k = some call ∧ call.created = created) ∨
        ∃ post ∈ s.posts, post.created = created := by
  have hphase : created ∈ (match s.phase with
      | .starting created | .registering created => [created]
      | _ => ([] : List ℚ≥0)) ↔ s.phase = .starting created ∨ s.phase = .registering created := by
    cases s.phase <;> simp [eq_comm]
  unfold pending
  rw [List.mem_append, List.mem_append, hphase, List.mem_map, List.mem_map]
  simp only [OrderedMap.mem_values_iff]
  constructor
  · rintro (h | ⟨call, ⟨k, hk⟩, rfl⟩ | h)
    · exact Or.inl h
    · exact Or.inr (Or.inl ⟨k, call, hk, rfl⟩)
    · exact Or.inr (Or.inr h)
  · rintro (h | ⟨k, call, hk, rfl⟩ | h)
    · exact Or.inl h
    · exact Or.inr (Or.inl ⟨call, ⟨k, hk⟩, rfl⟩)
    · exact Or.inr (Or.inr h)

/-! ## What is stored -/

/-- A broadcast is listed, by a registration of that time. -/
def Stored (rules : LeaseRules) (clock : ℚ≥0) (P : ℚ≥0 → Prop) (store : TrackerStore)
    (id : BroadcastId) : Prop :=
  ∃ broadcast, ∃ created ≤ clock, store.record? id = some broadcast ∧ P created ∧
    broadcast.metadata = some (rules.leaseMetadata created)

theorem Stored.mono {store : TrackerStore} (h : Stored rules clock P store id)
    (hle : clock ≤ later) (himp : ∀ created, P created → Q created) :
    Stored rules later Q store id := by
  obtain ⟨broadcast, created, hcreated, hrecord, hP, hmetadata⟩ := h
  exact ⟨broadcast, created, hcreated.trans hle, hrecord, himp created hP, hmetadata⟩

theorem Stored.of_record? {store store' : TrackerStore} (h : Stored rules clock P store id)
    (hsame : store'.record? id = store.record? id) : Stored rules clock P store' id := by
  obtain ⟨broadcast, created, hcreated, hrecord, hP, hmetadata⟩ := h
  exact ⟨broadcast, created, hcreated, hsame.trans hrecord, hP, hmetadata⟩

theorem stored_registerBroadcast {store : TrackerStore} (hnamed : store.Named) {created : ℚ≥0}
    (hcreated : created ≤ clock) (hP : P created) (time : Timestamp) (streamId : BroadcastId) :
    Stored rules clock P (store.registerBroadcast time (rules.registration created streamId)).1
      streamId := by
  refine ⟨TrackerStore.registeredRecord (store.record? streamId) time
    (rules.registration created streamId), created, hcreated, ?_, hP, rfl⟩
  rw [TrackerStore.record?_registerBroadcast hnamed]
  exact if_pos rfl

/-- The leases of registrations of such a time run on. -/
def Young (rules : LeaseRules) (clock : ℚ≥0) (P : ℚ≥0 → Prop) : Prop :=
  ∀ created, P created → rules.trackerNow clock < rules.originNow created + LEASE_MS

/-- A sweep leaves a broadcast whose registrations are young enough. -/
theorem Stored.cleanUp {store : TrackerStore} (h : Stored rules clock P store id)
    (hnamed : store.Named) (hyears : rules.InYears clock) (hyoung : Young rules clock P) :
    Stored rules clock P (stateAfter store
      ((store.cleanUp rules.other rules.stalePeerMs (rules.trackerNow clock)).map (·, ()))) id := by
  obtain ⟨broadcast, created, hcreated, hrecord, hP, hmetadata⟩ := h
  obtain ⟨left, hok, hleft⟩ := TrackerStore.cleanUp_ok hnamed rules.other rules.stalePeerMs
    (rules.trackerNow clock)
  have hvalid : ¬ broadcast.LeaseRunOut rules.other (rules.trackerNow clock) := by
    rintro ⟨lease, hlease, hle⟩
    rw [leaseEnd?_of_leased (hyears.mono hcreated) hmetadata] at hlease
    obtain rfl := Option.some.inj hlease
    have hlt : (rules.trackerNow clock : ℤ) < rules.originNow created + LEASE_MS := by
      exact_mod_cast hyoung created hP
    exact absurd hlt (not_lt.mpr hle)
  refine ⟨broadcast, created, hcreated, ?_, hP, hmetadata⟩
  rw [hok]
  change left.record? id = some broadcast
  rw [hleft, hrecord, Option.filter_some_pos (by simpa using hvalid)]

/-! ## What is accepted -/

/-- Every call for the stream that has not returned has been accepted. -/
def Accepted (s : BroadcastLeases) (id : BroadcastId) : Prop :=
  ∀ k call, s.calls.get? k = some call → call.streamId = id →
    ∃ response ∈ s.responses, response.call = k ∧ response.error = none

/-- A step by which no call returns but by an answer that is there. -/
theorem Accepted.before (h : s'.Accepted id)
    (hcalls : ∀ k call, s.calls.get? k = some call →
      (∃ call', s'.calls.get? k = some call' ∧ call'.streamId = call.streamId) ∨
        ∃ response ∈ s.responses, response.call = k ∧ response.error = none)
    (hresponses : ∀ response ∈ s'.responses, response.error = none → response ∈ s.responses) :
    s.Accepted id := by
  intro k call hk hid
  rcases hcalls k call hk with ⟨call', hk', hsame⟩ | hanswered
  · obtain ⟨response, hmem, hcall, hnone⟩ := h k call' hk' (hsame.trans hid)
    exact ⟨response, hresponses response hmem hnone, hcall, hnone⟩
  · exact hanswered

/-- What the parties know of a round: when its calls and requests were made, and that what is
accepted is stored. -/
structure Covers (rules : LeaseRules) (clock : ℚ≥0) (P : ℚ≥0 → Prop) (s : BroadcastLeases) :
    Prop where
  calls : ∀ k call, s.calls.get? k = some call → P call.created
  posts : ∀ post ∈ s.posts, P post.created
  stored : ∀ id ∈ rules.streamIds, s.Accepted id → Stored rules clock P s.store id

/-- Answers belong to the calls by their numbers. -/
structure Numbered (s : BroadcastLeases) : Prop where
  calls : ∀ k call, s.calls.get? k = some call → k < s.called
  posts : ∀ post ∈ s.posts, post.call < s.called ∧
    ∀ call, s.calls.get? post.call = some call → call.streamId = post.streamId
  responses : ∀ response ∈ s.responses, response.call < s.called ∧
    ∀ statusCode, response.error = some statusCode → ¬ IsPermanent statusCode

/-- What holds in each phase of a process that has not ended. -/
def InPhase (rules : LeaseRules) (D : ℕ) (clock : ℚ≥0) (s : BroadcastLeases) : Prop :=
  match s.phase with
  | .idle | .starting _ => (∀ k, s.calls.get? k = none) ∧ s.posts = [] ∧ s.responses = []
  | .registering created => Covers rules clock (· = created) s
  | .refreshing next =>
      clock ≤ next ∧ next ≤ clock + LEASE_REFRESH_MS ∧
        Covers rules clock (fun created => next ≤ created + LEASE_REFRESH_MS + D) s ∧
        (∀ k call, s.calls.get? k = some call → call.created + LEASE_REFRESH_MS ≤ next) ∧
        ∀ id ∈ rules.streamIds,
          Stored rules clock (fun created => next ≤ created + (2 * LEASE_REFRESH_MS : ℕ) + D)
            s.store id
  | .failed => False
  | .stopped _ => True

structure Renewing (rules : LeaseRules) (D : ℕ) (clock : ℚ≥0) (s : BroadcastLeases) : Prop where
  numbered : s.Numbered
  prompt : ∀ created ∈ s.pending, created ≤ clock ∧ clock ≤ created + D
  deletes : s.deletes = []
  phase : InPhase rules D clock s

/-! ## Steps within a phase -/

/-- A step that makes no call. -/
structure Continues (s s' : BroadcastLeases) : Prop where
  called : s'.called = s.called
  deletes : s'.deletes = s.deletes
  calls : ∀ k call', s'.calls.get? k = some call' → ∃ call, s.calls.get? k = some call ∧
    call'.streamId = call.streamId ∧ call'.created = call.created
  posts : ∀ post ∈ s'.posts, post ∈ s.posts ∨ ∃ call, s.calls.get? post.call = some call ∧
    call.streamId = post.streamId ∧ call.created = post.created
  responses : ∀ response ∈ s'.responses, response ∈ s.responses ∨
    ∃ post ∈ s.posts, post.call = response.call ∧
      ∀ statusCode, response.error = some statusCode → ¬ IsPermanent statusCode

namespace Continues

theorem numbered (hc : Continues s s') (h : s.Numbered) : s'.Numbered where
  calls k call' hk := by
    obtain ⟨call, hcall, -⟩ := hc.calls k call' hk
    exact hc.called ▸ h.calls k call hcall
  posts post hpost := by
    rw [hc.called]
    rcases hc.posts post hpost with hold | ⟨call, hcall, hid, -⟩
    · refine ⟨(h.posts post hold).1, fun call' hcall' => ?_⟩
      obtain ⟨call, hcall, hsame, -⟩ := hc.calls _ call' hcall'
      exact hsame.trans ((h.posts post hold).2 call hcall)
    · refine ⟨h.calls _ call hcall, fun call' hcall' => ?_⟩
      obtain ⟨before, hbefore, hsame, -⟩ := hc.calls _ call' hcall'
      obtain rfl := Option.some.inj (hbefore.symm.trans hcall)
      exact hsame.trans hid
  responses response hresponse := by
    rw [hc.called]
    rcases hc.responses response hresponse with hold | ⟨post, hpost, hcall, herror⟩
    · exact h.responses response hold
    · exact ⟨hcall ▸ (h.posts post hpost).1, herror⟩

/-- What is unsettled afterwards was before. -/
theorem mem_pending (hc : Continues s s') {created : ℚ≥0} (h : created ∈ s'.pending)
    (hphase : s'.phase = .starting created ∨ s'.phase = .registering created →
      s.phase = .starting created ∨ s.phase = .registering created) : created ∈ s.pending := by
  rw [mem_pending_iff] at h ⊢
  rcases h with h | ⟨k, call', hk, rfl⟩ | ⟨post, hpost, rfl⟩
  · exact Or.inl (hphase h)
  · obtain ⟨call, hcall, -, hsame⟩ := hc.calls k call' hk
    exact Or.inr (Or.inl ⟨k, call, hcall, hsame.symm⟩)
  · rcases hc.posts post hpost with hold | ⟨call, hcall, -, hsame⟩
    · exact Or.inr (Or.inr ⟨post, hold, rfl⟩)
    · exact Or.inr (Or.inl ⟨_, call, hcall, hsame⟩)

/-- A round goes on. -/
theorem covers (hc : Continues s s') (h : Covers rules clock P s)
    (hstored : ∀ id ∈ rules.streamIds, (s.Accepted id → Stored rules clock P s.store id) →
      s'.Accepted id → Stored rules clock P s'.store id) : Covers rules clock P s' where
  calls k call' hk := by
    obtain ⟨call, hcall, -, hsame⟩ := hc.calls k call' hk
    rw [hsame]
    exact h.calls k call hcall
  posts post hpost := by
    rcases hc.posts post hpost with hold | ⟨call, hcall, -, hsame⟩
    · exact h.posts post hold
    · exact hsame ▸ h.calls _ call hcall
  stored id hid := hstored id hid (h.stored id hid)

end Continues

/-- The clock of the tracker is at most so far ahead that a lease outlasts two rounds. -/
def ClocksAgree (rules : LeaseRules) (D : ℕ) : Prop :=
  rules.trackerEpoch + D < rules.originEpoch + LEASE_REFRESH_MS

instance (rules : LeaseRules) (D : ℕ) : Decidable (ClocksAgree rules D) := Nat.decLt _ _

theorem young_of_recent (hclocks : ClocksAgree rules D)
    (hP : ∀ created, P created → clock ≤ created + (2 * LEASE_REFRESH_MS : ℕ) + D) :
    Young rules clock P := by
  intro created hcreated
  have hfloor := Nat.floor_mono (hP created hcreated)
  rw [Nat.floor_add_natCast zero_le, Nat.floor_add_natCast zero_le] at hfloor
  unfold ClocksAgree at hclocks
  unfold LeaseRules.trackerNow LeaseRules.originNow
  have hlease : LEASE_MS = 3 * LEASE_REFRESH_MS := rfl
  omega

theorem within_two_rounds {next created : ℚ≥0} (h : next ≤ created + LEASE_REFRESH_MS + D) :
    next ≤ created + (2 * LEASE_REFRESH_MS : ℕ) + D := by
  refine h.trans ?_
  gcongr
  exact le_mul_of_one_le_left zero_le (by norm_num)

/-- What is known of a stream stays known. -/
def Keeps (rules : LeaseRules) (clock : ℚ≥0) (P : ℚ≥0 → Prop) (s s' : BroadcastLeases) : Prop :=
  ∀ id ∈ rules.streamIds, (Stored rules clock P s.store id → Stored rules clock P s'.store id) ∧
    ((s.Accepted id → Stored rules clock P s.store id) → s'.Accepted id →
      Stored rules clock P s'.store id)

theorem keeps_of_store (hstore : s'.store = s.store) (hbefore : ∀ id, s'.Accepted id → s.Accepted id) :
    Keeps rules clock P s s' := by
  intro id _
  rw [hstore]
  exact ⟨fun h => h, fun h haccepted => h (hbefore id haccepted)⟩

namespace Renewing

/-- A step within a phase, where what is known of a round stays known. -/
theorem continues (h : Renewing rules D clock s) (hclocks : ClocksAgree rules D)
    (hc : Continues s s') (hphase : s'.phase = s.phase)
    (hkeeps : ∀ P, Young rules clock P → (∀ post ∈ s.posts, P post.created) →
      Keeps rules clock P s s') : Renewing rules D clock s' := by
  refine ⟨hc.numbered h.numbered, fun created hpending => h.prompt created ?_,
    hc.deletes.trans h.deletes, ?_⟩
  · exact hc.mem_pending hpending fun hstarting => hphase ▸ hstarting
  have hin := h.phase
  unfold InPhase at hin ⊢
  rw [hphase]
  have hquiet : (∀ k, s.calls.get? k = none) ∧ s.posts = [] ∧ s.responses = [] →
      (∀ k, s'.calls.get? k = none) ∧ s'.posts = [] ∧ s'.responses = [] := by
    rintro ⟨hcalls, hposts, hresponses⟩
    refine ⟨fun k => ?_, List.eq_nil_iff_forall_not_mem.mpr fun post hpost => ?_,
      List.eq_nil_iff_forall_not_mem.mpr fun response hresponse => ?_⟩
    · rcases Option.eq_none_or_eq_some (s'.calls.get? k) with hnone | ⟨call', hk⟩
      · exact hnone
      · obtain ⟨call, hcall, -⟩ := hc.calls k call' hk
        cases (hcalls k).symm.trans hcall
    · rcases hc.posts post hpost with hold | ⟨call, hcall, -⟩
      · rw [hposts] at hold
        cases hold
      · cases (hcalls _).symm.trans hcall
    · rcases hc.responses response hresponse with hold | ⟨post, hpost, -⟩
      · rw [hresponses] at hold
        cases hold
      · rw [hposts] at hpost
        cases hpost
  cases hs : s.phase with
  | idle | starting created =>
      rw [hs] at hin
      exact hquiet hin
  | registering created =>
      rw [hs] at hin
      have hyoung : Young rules clock (· = created) := by
        refine young_of_recent hclocks ?_
        rintro _ rfl
        have hold := (h.prompt _ (mem_pending_iff.mpr (Or.inl (Or.inr hs)))).2
        exact hold.trans (add_le_add_left le_self_add _)
      exact hc.covers hin fun id hid => (hkeeps _ hyoung hin.posts id hid).2
  | refreshing next =>
      rw [hs] at hin
      obtain ⟨hle, hnext, hcovers, hcalls, hall⟩ := hin
      have hyoung : Young rules clock (fun created => next ≤ created + LEASE_REFRESH_MS + D) :=
        young_of_recent hclocks fun created hP =>
          hle.trans (within_two_rounds hP)
      have hyoung' : Young rules clock
          (fun created => next ≤ created + (2 * LEASE_REFRESH_MS : ℕ) + D) :=
        young_of_recent hclocks fun created hP => hle.trans hP
      refine ⟨hle, hnext, hc.covers hcovers fun id hid =>
        (hkeeps _ hyoung hcovers.posts id hid).2, fun k call' hk => ?_, fun id hid =>
        (hkeeps _ hyoung' (fun post hpost => within_two_rounds (hcovers.posts post hpost)) id hid).1
          (hall id hid)⟩
      obtain ⟨call, hcall, -, hsame⟩ := hc.calls k call' hk
      rw [hsame]
      exact hcalls k call hcall
  | failed =>
      rw [hs] at hin
      exact hin
  | stopped since => trivial

/-! ## The steps -/

/-- What only changes the calls, each of which goes on or has been accepted. -/
theorem continues_of_store (h : Renewing rules D clock s) (hclocks : ClocksAgree rules D)
    (hc : Continues s s') (hphase : s'.phase = s.phase) (hstore : s'.store = s.store)
    (hcalls : ∀ k call, s.calls.get? k = some call →
      (∃ call', s'.calls.get? k = some call' ∧ call'.streamId = call.streamId) ∨
        ∃ response ∈ s.responses, response.call = k ∧ response.error = none)
    (hresponses : ∀ response ∈ s'.responses, response.error = none → response ∈ s.responses) :
    Renewing rules D clock s' :=
  h.continues hclocks hc hphase fun _ _ _ =>
    keeps_of_store hstore fun _ haccepted => haccepted.before hcalls hresponses

theorem setCall (h : Renewing rules D clock s) (hclocks : ClocksAgree rules D) {k : ℕ}
    {call call' : RegistrationCall} (hcall : s.calls.get? k = some call)
    (hid : call'.streamId = call.streamId) (hcreated : call'.created = call.created) :
    Renewing rules D clock { s with calls := s.calls.set k call' } := by
  refine h.continues_of_store hclocks
    ⟨rfl, rfl, fun k' call'' hk => ?_, fun _ hpost => Or.inl hpost, fun _ hold => Or.inl hold⟩ rfl rfl
    (fun k' old hold => Or.inl ?_) fun _ hold _ => hold
  · rw [OrderedMap.get?_set] at hk
    split_ifs at hk with heq
    · obtain rfl := Option.some.inj hk
      exact ⟨call, heq ▸ hcall, hid, hcreated⟩
    · exact ⟨call'', hk, rfl, rfl⟩
  · by_cases heq : k' = k
    · subst heq
      obtain rfl := Option.some.inj (hcall.symm.trans hold)
      exact ⟨call', (OrderedMap.get?_set ..).trans (if_pos rfl), hid⟩
    · exact ⟨old, (OrderedMap.get?_set ..).trans ((if_neg heq).trans hold), rfl⟩

theorem send (h : Renewing rules D clock s) (hclocks : ClocksAgree rules D) {post : RegistrationPost}
    {call : RegistrationCall} (hcall : s.calls.get? post.call = some call)
    (hid : call.streamId = post.streamId) (hcreated : call.created = post.created) :
    Renewing rules D clock { s with posts := s.posts ++ [post] } := by
  refine h.continues_of_store hclocks
    ⟨rfl, rfl, fun _ call' hk => ⟨call', hk, rfl, rfl⟩, fun post' hpost => ?_,
      fun _ hold => Or.inl hold⟩ rfl rfl (fun _ old hold => Or.inl ⟨old, hold, rfl⟩)
    fun _ hold _ => hold
  rcases List.mem_append.mp hpost with hold | hnew
  · exact Or.inl hold
  · obtain rfl := List.mem_singleton.mp hnew
    exact Or.inr ⟨call, hcall, hid, hcreated⟩

theorem request (h : Renewing rules D clock s) (hclocks : ClocksAgree rules D) {k : ℕ}
    {call : RegistrationCall} (hcall : s.calls.get? k = some call) :
    Renewing rules D clock (s.request clock k call) := by
  have hset : Renewing rules D clock { s with
      calls := s.calls.set k
        { call with phase := .requesting (clock + TRACKER_REQUEST_TIMEOUT_MS) } } :=
    h.setCall hclocks hcall rfl rfl
  exact hset.send hclocks ((OrderedMap.get?_set ..).trans (if_pos rfl)) rfl rfl

/-- A response that is read, whether it is waited for or not. -/
theorem dropResponse (h : Renewing rules D clock s) (hclocks : ClocksAgree rules D) (i : ℕ) :
    Renewing rules D clock { s with responses := s.responses.eraseIdx i } :=
  h.continues_of_store hclocks
    ⟨rfl, rfl, fun _ call' hk => ⟨call', hk, rfl, rfl⟩, fun _ hpost => Or.inl hpost,
      fun _ hold => Or.inl (List.mem_of_mem_eraseIdx hold)⟩ rfl rfl
    (fun _ old hold => Or.inl ⟨old, hold, rfl⟩) fun _ hold _ => List.mem_of_mem_eraseIdx hold

theorem dropPost (h : Renewing rules D clock s) (hclocks : ClocksAgree rules D) (i : ℕ) :
    Renewing rules D clock { s with posts := s.posts.eraseIdx i } :=
  h.continues_of_store hclocks
    ⟨rfl, rfl, fun _ call' hk => ⟨call', hk, rfl, rfl⟩,
      fun _ hpost => Or.inl (List.mem_of_mem_eraseIdx hpost), fun _ hold => Or.inl hold⟩ rfl rfl
    (fun _ old hold => Or.inl ⟨old, hold, rfl⟩) fun _ hold _ => hold

/-- A call that has been accepted returns, and its answer is read. -/
theorem returns (h : Renewing rules D clock s) (hclocks : ClocksAgree rules D) {i : ℕ}
    {response : RegistrationResponse} (hresponse : s.responses[i]? = some response)
    (haccepted : response.error = none) :
    Renewing rules D clock { s with
      responses := s.responses.eraseIdx i
      calls := s.calls.delete response.call } := by
  refine h.continues_of_store hclocks
    ⟨rfl, rfl, fun k call' hk => ⟨call', (get?_delete_some hk).2, rfl, rfl⟩,
      fun _ hpost => Or.inl hpost, fun _ hold => Or.inl (List.mem_of_mem_eraseIdx hold)⟩ rfl rfl
    (fun k old hold => ?_) fun _ hold _ => List.mem_of_mem_eraseIdx hold
  by_cases heq : k = response.call
  · exact Or.inr ⟨response, List.mem_of_getElem? hresponse, heq.symm, haccepted⟩
  · exact Or.inl ⟨old, (OrderedMap.get?_delete ..).trans ((if_neg heq).trans hold), rfl⟩

/-- The first registrations are all accepted: the interval is armed. -/
theorem armed (h : Renewing rules D clock s) {created : ℚ≥0} (hphase : s.phase = .registering created)
    (hcalls : ∀ k, s.calls.get? k = none) :
    Renewing rules D clock { s with phase := .refreshing (clock + LEASE_REFRESH_MS) } := by
  have hin := h.phase
  unfold InPhase at hin
  rw [hphase] at hin
  have hold := (h.prompt created (mem_pending_iff.mpr (Or.inl (Or.inr hphase)))).2
  have hround : clock + LEASE_REFRESH_MS ≤ created + LEASE_REFRESH_MS + D := by
    rw [add_right_comm]
    gcongr
  have hstored : ∀ id ∈ rules.streamIds, Stored rules clock (· = created) s.store id :=
    fun id hid => hin.stored id hid fun k call hk => by cases (hcalls k).symm.trans hk
  refine ⟨⟨h.numbered.calls, h.numbered.posts, h.numbered.responses⟩, fun time hpending =>
    h.prompt time ?_, h.deletes, le_self_add, le_rfl, ⟨fun k call hk => ?_, fun post hpost => ?_,
      fun id hid _ => (hstored id hid).mono le_rfl ?_⟩, fun k call hk => ?_, fun id hid =>
      (hstored id hid).mono le_rfl ?_⟩
  · rw [mem_pending_iff] at hpending ⊢
    rcases hpending with hstarting | hunsettled
    · rcases hstarting with hfalse | hfalse <;> cases hfalse
    · exact Or.inr hunsettled
  · cases (hcalls k).symm.trans hk
  · show clock + LEASE_REFRESH_MS ≤ post.created + LEASE_REFRESH_MS + D
    rw [hin.posts post hpost]
    exact hround
  · rintro _ rfl
    exact hround
  · cases (hcalls k).symm.trans hk
  · rintro _ rfl
    exact within_two_rounds hround

/-- The interval is armed once the last of the first calls has returned. -/
theorem registered (h : Renewing rules D clock s) (hclocks : ClocksAgree rules D) {i : ℕ}
    {response : RegistrationResponse} (hresponse : s.responses[i]? = some response)
    (haccepted : response.error = none) :
    Renewing rules D clock
      ({ s with responses := s.responses.eraseIdx i }.registered clock response.call) := by
  have hreturned := h.returns hclocks hresponse haccepted
  unfold BroadcastLeases.registered
  dsimp only
  split
  · rename_i created hphase
    split_ifs with hempty
    · refine hreturned.armed hphase fun k => OrderedMap.get?_eq_none_iff.mpr fun hmem => ?_
      exact absurd (List.length_pos_of_mem (OrderedMap.mem_iff_mem_keys.mp hmem))
        (by rw [OrderedMap.length_keys, hempty]; exact lt_irrefl 0)
    · exact hreturned
  · exact hreturned

theorem answered (h : Renewing rules D clock s) (hclocks : ClocksAgree rules D) {i : ℕ}
    {response : RegistrationResponse} (hresponse : s.responses[i]? = some response)
    (random : Draw) :
    Renewing rules D clock
      ({ s with responses := s.responses.eraseIdx i }.onResponse clock response random) := by
  have hread := h.dropResponse hclocks i
  have hlasting := (h.numbered.responses response (List.mem_of_getElem? hresponse)).2
  unfold onResponse
  cases hcall : ({ s with responses := s.responses.eraseIdx i } : BroadcastLeases).calls.get?
      response.call with
  | none => exact hread
  | some call =>
      dsimp only
      split
      · exact hread
      · split_ifs
        · exact hread
        · split
          · rename_i haccepted
            exact h.registered hclocks hresponse haccepted
          · rename_i statusCode herror
            rw [if_neg (hlasting statusCode herror)]
            exact hread.setCall hclocks hcall rfl rfl

/-- A request arrives: the broadcast is stored, or the error is not for good. -/
theorem onPost (h : Renewing rules D clock s) (hclocks : ClocksAgree rules D)
    (hnamed : s.store.Named) {i : ℕ} {post : RegistrationPost} (hpost : s.posts[i]? = some post)
    {error : Option ℕ} (hlasting : ∀ statusCode, error = some statusCode → ¬ IsPermanent statusCode) :
    Renewing rules D clock
      ({ s with posts := s.posts.eraseIdx i }.onPost rules clock post error) := by
  have hmem : post ∈ s.posts := List.mem_of_getElem? hpost
  refine h.continues hclocks ⟨rfl, rfl, fun _ call' hk => ⟨call', hk, rfl, rfl⟩,
    fun _ hold => Or.inl (List.mem_of_mem_eraseIdx hold), fun response hresponse => ?_⟩ rfl
    fun P _ hposts id hid => ?_
  · rcases List.mem_append.mp hresponse with hold | hnew
    · exact Or.inl hold
    · obtain rfl := List.mem_singleton.mp hnew
      exact Or.inr ⟨post, hmem, rfl, hlasting⟩
  have hcreated := (h.prompt _ (mem_pending_iff.mpr (Or.inr (Or.inr ⟨post, hmem, rfl⟩)))).1
  unfold BroadcastLeases.onPost
  dsimp only
  -- An accepted request is stored under its stream; the others keep what they have.
  by_cases hnew : error = none ∧ id = post.streamId
  · obtain ⟨rfl, rfl⟩ := hnew
    have hstored : Stored rules clock P (s.store.registerBroadcast (rules.trackerNow clock)
        (rules.registration post.created post.streamId)).1 post.streamId :=
      stored_registerBroadcast hnamed hcreated (hposts post hmem) _ _
    rw [if_pos rfl]
    exact ⟨fun _ => hstored, fun _ _ => hstored⟩
  have hrecord : (if error = none then (s.store.registerBroadcast (rules.trackerNow clock)
      (rules.registration post.created post.streamId)).1 else s.store).record? id =
      s.store.record? id := by
    split_ifs with hok
    · rw [TrackerStore.record?_registerBroadcast hnamed]
      exact if_neg fun hsame => hnew ⟨hok, hsame⟩
    · rfl
  refine ⟨fun hstored => hstored.of_record? hrecord, fun hstored haccepted =>
    (hstored fun k call hk hcall => ?_).of_record? hrecord⟩
  obtain ⟨response, hresponse, hcalled, herror⟩ := haccepted k call hk hcall
  rcases List.mem_append.mp hresponse with hold | hlast
  · exact ⟨response, hold, hcalled, herror⟩
  · obtain rfl := List.mem_singleton.mp hlast
    subst hcalled
    exact absurd ⟨herror, hcall.symm.trans ((h.numbered.posts post hmem).2 call hk)⟩ hnew

/-- What only changes the store. -/
theorem setStore (h : Renewing rules D clock s) (hclocks : ClocksAgree rules D) {store : TrackerStore}
    {swept : ℚ≥0} (hstored : ∀ P, Young rules clock P → ∀ id ∈ rules.streamIds,
      Stored rules clock P s.store id → Stored rules clock P store id) :
    Renewing rules D clock { s with store, swept } :=
  h.continues hclocks ⟨rfl, rfl, fun _ call' hk => ⟨call', hk, rfl, rfl⟩, fun _ hold => Or.inl hold,
    fun _ hold => Or.inl hold⟩ rfl fun P hyoung _ id hid =>
      ⟨hstored P hyoung id hid, fun hbefore haccepted => hstored P hyoung id hid (hbefore haccepted)⟩

end Renewing

/-! ## New rounds -/

namespace Registers

variable {created : ℚ≥0}

theorem numbered (hr : Registers created rules.streamIds s s') (h : s.Numbered) : s'.Numbered where
  calls k call hk := by
    rcases hr.calls k call hk with hold | ⟨-, hlt, -⟩
    · exact (h.calls k call hold).trans_le hr.called
    · exact hlt
  posts post hpost := by
    rcases hr.posts post hpost with hold | ⟨-, call, hcall, hle, hid, -⟩
    · have hlt := (h.posts post hold).1
      refine ⟨hlt.trans_le hr.called, fun call hcall => ?_⟩
      rcases hr.calls _ call hcall with hbefore | ⟨hle, -⟩
      · exact (h.posts post hold).2 call hbefore
      · exact absurd hlt (not_lt.mpr hle)
    · refine ⟨?_, fun call' hcall' => ?_⟩
      · rcases hr.calls _ call hcall with hbefore | ⟨-, hlt, -⟩
        · exact absurd (h.calls _ call hbefore) (not_lt.mpr hle)
        · exact hlt
      · obtain rfl := Option.some.inj (hcall.symm.trans hcall')
        exact hid
  responses response hresponse := by
    have hold := h.responses response (hr.responses ▸ hresponse)
    exact ⟨hold.1.trans_le hr.called, hold.2⟩

/-- The new calls have no answers yet. -/
theorem not_accepted (hr : Registers created rules.streamIds s s') (h : s.Numbered)
    (hid : id ∈ rules.streamIds) : ¬ s'.Accepted id := by
  intro haccepted
  obtain ⟨k, call, hle, hcall, hstream⟩ := hr.reached id hid
  obtain ⟨response, hresponse, rfl, -⟩ := haccepted k call hcall hstream
  exact absurd (h.responses response (hr.responses ▸ hresponse)).1 (not_lt.mpr hle)

/-- A round over a state whose calls have all returned. -/
theorem covers (hr : Registers created rules.streamIds s s') (h : s.Numbered)
    (hcalls : ∀ k, s.calls.get? k = none) (hposts : ∀ post ∈ s.posts, P post.created)
    (hcreated : P created) : Covers rules clock P s' where
  calls k call hk := by
    rcases hr.calls k call hk with hold | ⟨-, -, -, rfl⟩
    · cases (hcalls k).symm.trans hold
    · exact hcreated
  posts post hpost := by
    rcases hr.posts post hpost with hold | ⟨hsame, -⟩
    · exact hposts post hold
    · exact hsame ▸ hcreated
  stored _ hid haccepted := absurd haccepted (hr.not_accepted h hid)

theorem prompt (hr : Registers created rules.streamIds s s')
    (hbefore : ∀ time ∈ s.pending, time ≤ clock ∧ clock ≤ time + D)
    (hcreated : created ≤ clock ∧ clock ≤ created + D) :
    ∀ time ∈ s'.pending, time ≤ clock ∧ clock ≤ time + D := by
  intro time hpending
  rcases mem_pending_iff.mp hpending with hphase | ⟨k, call, hk, rfl⟩ | ⟨post, hpost, rfl⟩
  · exact hbefore time (mem_pending_iff.mpr (Or.inl (hr.phase ▸ hphase)))
  · rcases hr.calls k call hk with hold | ⟨-, -, -, rfl⟩
    · exact hbefore _ (mem_pending_iff.mpr (Or.inr (Or.inl ⟨k, call, hold, rfl⟩)))
    · exact hcreated
  · rcases hr.posts post hpost with hold | ⟨hsame, -⟩
    · exact hbefore _ (mem_pending_iff.mpr (Or.inr (Or.inr ⟨post, hold, rfl⟩)))
    · exact hsame ▸ hcreated

end Registers

namespace Renewing

/-- `run` makes the first registrations. -/
theorem start (h : Renewing rules D clock s) (hidle : s.phase = .idle) :
    Renewing rules D clock { s with phase := .starting clock } := by
  have hin := h.phase
  unfold InPhase at hin
  rw [hidle] at hin
  obtain ⟨hcalls, hposts, hresponses⟩ := hin
  refine ⟨⟨h.numbered.calls, h.numbered.posts, h.numbered.responses⟩, fun time hpending => ?_,
    h.deletes, hcalls, hposts, hresponses⟩
  rcases mem_pending_iff.mp hpending with hphase | ⟨k, call, hk, rfl⟩ | ⟨post, hpost, rfl⟩
  · rcases hphase with hphase | hphase
    · obtain rfl := OriginPhase.starting.inj hphase
      exact ⟨le_rfl, le_self_add⟩
    · cases hphase
  · cases (hcalls k).symm.trans hk
  · change post ∈ s.posts at hpost
    rw [hposts] at hpost
    cases hpost

theorem serverStarted (h : Renewing rules D clock s) {created : ℚ≥0}
    (hphase : s.phase = .starting created) :
    Renewing rules D clock
      ({ s with phase := .registering created }.registerBroadcasts rules clock created) := by
  have hin := h.phase
  unfold InPhase at hin
  rw [hphase] at hin
  obtain ⟨hcalls, hposts, -⟩ := hin
  have hr := registers_registerBroadcasts clock created rules.streamIds
    { s with phase := .registering created }
  have hnumbered : Numbered { s with phase := .registering created } :=
    ⟨h.numbered.calls, h.numbered.posts, h.numbered.responses⟩
  have hcreated := h.prompt created (mem_pending_iff.mpr (Or.inl (Or.inl hphase)))
  refine ⟨hr.numbered hnumbered, hr.prompt (fun time hpending => h.prompt time ?_) hcreated,
    hr.deletes.trans h.deletes, ?_⟩
  · rw [mem_pending_iff] at hpending ⊢
    rcases hpending with hregistering | hunsettled
    · rcases hregistering with hfalse | hsame
      · cases hfalse
      · obtain rfl := OriginPhase.registering.inj hsame
        exact Or.inl (Or.inl hphase)
    · exact Or.inr hunsettled
  · unfold InPhase
    rw [show (BroadcastLeases.registerBroadcasts _ _ _ _).phase = .registering created from hr.phase]
    refine hr.covers hnumbered hcalls (fun post hpost => ?_) rfl
    change post ∈ s.posts at hpost
    rw [hposts] at hpost
    cases hpost

/-- By the time of the next round the last one is settled. -/
theorem refresh (h : Renewing rules D clock s) (hD : D < LEASE_REFRESH_MS)
    (hphase : s.phase = .refreshing clock) :
    Renewing rules D clock
      ({ s with phase := .refreshing (clock + LEASE_REFRESH_MS) }.registerBroadcasts rules clock
        clock) := by
  have hin := h.phase
  unfold InPhase at hin
  rw [hphase] at hin
  obtain ⟨-, -, hcovers, holder, -⟩ := hin
  have hcalls : ∀ k, s.calls.get? k = none := by
    intro k
    rcases Option.eq_none_or_eq_some (s.calls.get? k) with hnone | ⟨call, hk⟩
    · exact hnone
    · have hprompt := (h.prompt _ (mem_pending_iff.mpr (Or.inr (Or.inl ⟨k, call, hk, rfl⟩)))).2
      have hlate : (LEASE_REFRESH_MS : ℚ≥0) ≤ D :=
        le_of_add_le_add_left ((holder k call hk).trans hprompt)
      exact absurd (Nat.cast_le.mp hlate) (not_le.mpr hD)
  have hstored : ∀ id ∈ rules.streamIds,
      Stored rules clock (fun created => clock ≤ created + LEASE_REFRESH_MS + D) s.store id :=
    fun id hid => hcovers.stored id hid fun k call hk => by cases (hcalls k).symm.trans hk
  have hr := registers_registerBroadcasts clock clock rules.streamIds
    { s with phase := .refreshing (clock + LEASE_REFRESH_MS) }
  have hnumbered : Numbered { s with phase := .refreshing (clock + LEASE_REFRESH_MS) } :=
    ⟨h.numbered.calls, h.numbered.posts, h.numbered.responses⟩
  refine ⟨hr.numbered hnumbered, hr.prompt (fun time hpending => h.prompt time ?_)
    ⟨le_rfl, le_self_add⟩, hr.deletes.trans h.deletes, ?_⟩
  · rw [mem_pending_iff] at hpending ⊢
    rcases hpending with hphase' | hunsettled
    · rcases hphase' with hfalse | hfalse <;> cases hfalse
    · exact Or.inr hunsettled
  · unfold InPhase
    rw [show (BroadcastLeases.registerBroadcasts _ _ _ _).phase =
      .refreshing (clock + LEASE_REFRESH_MS) from hr.phase]
    refine ⟨le_self_add, le_rfl, hr.covers hnumbered hcalls (fun post hpost => ?_) le_self_add,
      fun k call hk => ?_, fun id hid => ?_⟩
    · have hprompt := (h.prompt _ (mem_pending_iff.mpr (Or.inr (Or.inr ⟨post, hpost, rfl⟩)))).2
      rw [add_right_comm]
      gcongr
    · rcases hr.calls k call hk with hold | ⟨-, -, -, hsame⟩
      · cases (hcalls k).symm.trans hold
      · rw [hsame]
    · refine ((hstored id hid).mono le_rfl fun created hround => ?_).of_record?
        (congrArg (TrackerStore.record? · id) hr.store)
      rw [two_mul, Nat.cast_add, ← add_assoc, add_right_comm _ _ (D : ℚ≥0)]
      gcongr

theorem elapse (h : Renewing rules D clock s) {duration : ℚ≥0}
    (hprompt : ∀ created ∈ s.pending, clock + duration ≤ created + D)
    (hdue : ∀ due ∈ timers rules s, clock + duration ≤ due) :
    Renewing rules D (clock + duration) s := by
  have hle : clock ≤ clock + duration := le_self_add
  refine ⟨h.numbered, fun created hpending =>
    ⟨(h.prompt created hpending).1.trans hle, hprompt created hpending⟩, h.deletes, ?_⟩
  have hin := h.phase
  unfold InPhase at hin ⊢
  cases hphase : s.phase with
  | idle | starting created =>
      rw [hphase] at hin
      exact hin
  | registering created =>
      rw [hphase] at hin
      exact ⟨hin.calls, hin.posts, fun id hid haccepted =>
        (hin.stored id hid haccepted).mono hle fun _ hP => hP⟩
  | refreshing next =>
      rw [hphase] at hin
      obtain ⟨-, hnext, hcovers, holder, hall⟩ := hin
      refine ⟨hdue next ?_, hnext.trans (add_le_add_left hle _), ⟨hcovers.calls, hcovers.posts,
        fun id hid haccepted => (hcovers.stored id hid haccepted).mono hle fun _ hP => hP⟩, holder,
        fun id hid => (hall id hid).mono hle fun _ hP => hP⟩
      unfold timers
      rw [hphase]
      simp
  | failed =>
      rw [hphase] at hin
      exact hin
  | stopped since => trivial

/-- A prompt step keeps it, unless it ends the process. -/
theorem step (h : Renewing rules D clock s) (hleased : Leased rules clock s)
    (hD : D < LEASE_REFRESH_MS) (hclocks : ClocksAgree rules D) (hyears : rules.InYears clock)
    {event : LeaseEvent} (hok : Prompt D ⟨clock, s⟩ (.event event))
    (hstep : BroadcastLeases.step rules clock s event = some s') :
    s'.IsStopped ∨ Renewing rules D clock s' := by
  cases event with
  | start =>
      simp only [BroadcastLeases.step] at hstep
      split_ifs at hstep with hidle
      obtain rfl := Option.some.inj hstep
      exact Or.inr (h.start hidle)
  | serverStarted =>
      simp only [BroadcastLeases.step] at hstep
      split at hstep
      · rename_i created hphase
        obtain rfl := Option.some.inj hstep
        exact Or.inr (h.serverStarted hphase)
      · cases hstep
  | arrives post error =>
      simp only [BroadcastLeases.step] at hstep
      split at hstep
      · rename_i found hfound
        obtain rfl := Option.some.inj hstep
        refine Or.inr (h.onPost hclocks hleased.records.named hfound ?_)
        rintro statusCode rfl
        exact hok
      · cases hstep
  | lost post =>
      simp only [BroadcastLeases.step] at hstep
      split_ifs at hstep
      obtain rfl := Option.some.inj hstep
      exact Or.inr (h.dropPost hclocks post)
  | answered response random =>
      simp only [BroadcastLeases.step] at hstep
      split at hstep
      · rename_i found hfound
        obtain rfl := Option.some.inj hstep
        exact Or.inr (h.answered hclocks hfound random)
      · cases hstep
  | requestFails k random =>
      simp only [BroadcastLeases.step] at hstep
      split at hstep
      · rename_i call hcall
        split at hstep
        · obtain rfl := Option.some.inj hstep
          exact Or.inr (h.setCall hclocks hcall rfl rfl)
        · cases hstep
      · cases hstep
  | timesOut k random =>
      simp only [BroadcastLeases.step] at hstep
      split at hstep
      · rename_i call hcall
        split_ifs at hstep
        obtain rfl := Option.some.inj hstep
        exact Or.inr (h.setCall hclocks hcall rfl rfl)
      · cases hstep
  | retries k =>
      simp only [BroadcastLeases.step] at hstep
      split at hstep
      · rename_i call hcall
        split_ifs at hstep
        obtain rfl := Option.some.inj hstep
        exact Or.inr (h.request hclocks hcall)
      · cases hstep
  | refresh =>
      simp only [BroadcastLeases.step] at hstep
      split_ifs at hstep with hphase
      obtain rfl := Option.some.inj hstep
      exact Or.inr (h.refresh hD hphase)
  | shutdown | crash =>
      simp only [BroadcastLeases.step] at hstep
      split at hstep
      · cases hstep
      · cases hstep
      · obtain rfl := Option.some.inj hstep
        exact Or.inl ⟨clock, rfl⟩
  | deleteArrives delete =>
      -- Nothing is unregistered before the process ends.
      simp only [BroadcastLeases.step, h.deletes, List.getElem?_nil] at hstep
      cases hstep
  | sweep =>
      simp only [BroadcastLeases.step] at hstep
      split_ifs at hstep
      obtain rfl := Option.some.inj hstep
      exact Or.inr (h.setStore hclocks fun P hyoung id _ hstored =>
        hstored.cleanUp hleased.records.named hyears hyoung)
  | storeCall op =>
      simp only [BroadcastLeases.step] at hstep
      split_ifs at hstep with hforeign
      obtain rfl := Option.some.inj hstep
      exact Or.inr (h.setStore hclocks fun P _ id hid hstored =>
        hstored.of_record? (record?_of_foreign hforeign hid))

theorem new (rules : LeaseRules) (D : ℕ) : Renewing rules D 0 (new rules) := by
  refine ⟨⟨nofun, nofun, nofun⟩, fun created hpending => ?_, rfl, fun _ => rfl, rfl, rfl⟩
  cases hpending

end Renewing

/-! ## Every prompt run -/

/-- A process that has ended does not come back. -/
theorem Leased.stays_stopped (h : Leased rules clock s) (hstopped : s.IsStopped)
    {event : LeaseEvent} (hstep : BroadcastLeases.step rules clock s event = some s') : s'.IsStopped := by
  obtain ⟨since, hphase⟩ := hstopped
  have hcalls := (h.sent.stopped since hphase).2
  cases event with
  | start | refresh => simp [BroadcastLeases.step, hphase] at hstep
  | serverStarted | shutdown | crash =>
      simp only [BroadcastLeases.step, hphase] at hstep
      cases hstep
  | requestFails k random | timesOut k random | retries k =>
      simp only [BroadcastLeases.step, hcalls] at hstep
      cases hstep
  | arrives post error | deleteArrives delete =>
      simp only [BroadcastLeases.step] at hstep
      split at hstep
      · obtain rfl := Option.some.inj hstep
        exact ⟨since, hphase⟩
      · cases hstep
  | lost post | sweep | storeCall op =>
      simp only [BroadcastLeases.step] at hstep
      split_ifs at hstep
      obtain rfl := Option.some.inj hstep
      exact ⟨since, hphase⟩
  | answered response random =>
      simp only [BroadcastLeases.step] at hstep
      split at hstep
      · rename_i found _
        obtain rfl := Option.some.inj hstep
        exact ⟨since, ((settles_onResponse found random).stopped since).mpr hphase⟩
      · cases hstep

/-- While the process runs, its broadcasts are being renewed. -/
theorem renewing_of_reachable {t : Timed BroadcastLeases} (hD : D < LEASE_REFRESH_MS)
    (hclocks : ClocksAgree rules D)
    (hr : (system rules).toTransitionSystem.Reachable (Prompt D) t) :
    Leased rules t.clock t.state ∧
      (t.state.IsStopped ∨ (rules.InYears t.clock → Renewing rules D t.clock t.state)) := by
  refine TransitionSystem.Reachable.invariant hr (fun t => Leased rules t.clock t.state ∧
    (t.state.IsStopped ∨ (rules.InYears t.clock → Renewing rules D t.clock t.state))) ?_ ?_
  · rintro ⟨clock, s⟩ ⟨hclock, hs⟩
    obtain rfl : clock = 0 := hclock
    obtain rfl : s = new rules := hs
    exact ⟨.new rules, Or.inr fun _ => .new rules D⟩
  · refine TimedSystem.step_invariant (Prompt D) (fun clock s => Leased rules clock s ∧
      (s.IsStopped ∨ (rules.InYears clock → Renewing rules D clock s))) ?_ ?_
    · rintro clock s event s' ⟨hleased, hbefore⟩ hok hstep
      refine ⟨hleased.step hstep, ?_⟩
      rcases hbefore with hstopped | hrenewing
      · exact Or.inl (hleased.stays_stopped hstopped hstep)
      · by_cases hyears : rules.InYears clock
        · rcases (hrenewing hyears).step hleased hD hclocks hyears hok hstep with hstopped | hafter
          · exact Or.inl hstopped
          · exact Or.inr fun _ => hafter
        · exact Or.inr fun hyears' => absurd hyears' hyears
    · rintro clock duration s ⟨hleased, hbefore⟩ hok hdue
      refine ⟨hleased.elapse le_self_add hdue, hbefore.imp_right fun hrenewing hyears => ?_⟩
      exact (hrenewing (hyears.mono le_self_add)).elapse hok hdue

/-- **The broadcasts of a live origin stay listed.** Where every registration is settled within less
than the refresh interval, and the tracker's clock is not further ahead of the origin's than what is
left of it, no sweep takes away a broadcast of an origin that refreshes its leases. -/
theorem live_origin_listed {t : Timed BroadcastLeases} (hD : D < LEASE_REFRESH_MS)
    (hclocks : ClocksAgree rules D)
    (hr : (system rules).toTransitionSystem.Reachable (Prompt D) t)
    (hyears : rules.InYears t.clock) {next : ℚ≥0} (hphase : t.state.phase = .refreshing next) :
    ∀ id ∈ rules.streamIds, ∃ broadcast ∈ t.state.store.listBroadcasts,
      broadcast.id = id ∧ broadcast.playlistUrl = rules.playlistUrl id := by
  intro id hid
  obtain ⟨hleased, hbefore⟩ := renewing_of_reachable hD hclocks hr
  have hrenewing : Renewing rules D t.clock t.state := by
    rcases hbefore with ⟨since, hstopped⟩ | hrenewing
    · cases hphase.symm.trans hstopped
    · exact hrenewing hyears
  have hin := hrenewing.phase
  unfold InPhase at hin
  rw [hphase] at hin
  obtain ⟨-, -, -, -, hall⟩ := hin
  obtain ⟨broadcast, -, -, hrecord, -⟩ := hall id hid
  refine ⟨broadcast, TrackerStore.mem_listBroadcasts_iff.mpr ⟨id, hrecord⟩, ?_, ?_⟩
  · exact hleased.records.named id broadcast hrecord
  · exact (hleased.records.recorded id hid broadcast hrecord).playlistUrl

/-- The request of the second round is lost, and repeated. -/
def lostRefresh : List (TimedLabel LeaseEvent) :=
  [.event .start, .event .serverStarted, .event (.arrives 0 none), .elapse (20 : ℕ),
    .event (.answered 0 ⟨0, zero_draw⟩), .elapse (14980 : ℕ), .event .sweep, .elapse (15000 : ℕ),
    .event .sweep, .elapse (20 : ℕ), .event .refresh, .event (.lost 0), .elapse (5000 : ℕ),
    .event (.timesOut 1 ⟨0, zero_draw⟩), .elapse (800 : ℕ), .event (.retries 1),
    .event (.arrives 0 none), .event (.answered 0 ⟨0, zero_draw⟩)]

theorem lostRefresh_listed : ∃ t : Timed BroadcastLeases,
    (system oneStream).toTransitionSystem.run ⟨0, new oneStream⟩ lostRefresh = some t ∧
      ∀ id ∈ oneStream.streamIds, ∃ broadcast ∈ t.state.store.listBroadcasts,
        broadcast.id = id ∧ broadcast.playlistUrl = oneStream.playlistUrl id := by
  obtain ⟨t, ht⟩ : ∃ t, (system oneStream).toTransitionSystem.run ⟨0, new oneStream⟩
      lostRefresh = some t := Option.isSome_iff_exists.mp (by decide +kernel)
  have hstate : ((system oneStream).toTransitionSystem.run ⟨0, new oneStream⟩ lostRefresh).map
      (fun t => (t.clock, t.state.phase)) = some (35820, .refreshing 60020) := by decide +kernel
  have hok : (system oneStream).toTransitionSystem.RunOk (Prompt 20000) ⟨0, new oneStream⟩
      lostRefresh := by decide +kernel
  rw [ht, Option.map_some, Option.some.injEq, Prod.mk.injEq] at hstate
  have hyears : oneStream.InYears 35820 := by decide +kernel
  have hinit : (system oneStream).toTransitionSystem.init ⟨0, new oneStream⟩ := ⟨rfl, rfl⟩
  refine ⟨t, ht, live_origin_listed (by decide) (by decide +kernel)
    (TransitionSystem.Reachable.append_run (.init hinit) hok ht) ?_ hstate.2⟩
  rw [hstate.1]
  exact hyears

/-- A first registration that is accepted after a minute and three quarters has the lease of its
first request: the next sweep takes the broadcast away, and the next round comes later. -/
example : ((system { oneStream with stalePeerMs := 240000 }).toTransitionSystem.run
    ⟨0, new oneStream⟩ ([.event .start, .event .serverStarted] ++
      ([800, 1600, 3200, 6400, 12800, 24000, 24000].flatMap fun delay : ℕ =>
        [.elapse (5000 : ℕ), .event (.timesOut 0 ⟨0, zero_draw⟩), .elapse delay,
          .event (.retries 0)]) ++
      [.event (.arrives 7 none), .event (.answered 0 ⟨0, zero_draw⟩), .elapse (12200 : ℕ),
        .event .sweep])).map (fun t => (t.clock, t.state.phase, t.state.store.listBroadcasts)) =
      some (120000, .refreshing 137800, []) := by decide +kernel

end BroadcastLeases

end OpenStreamGrid
