import Mathlib
import OpenStreamGrid.Lib.Backoff
import OpenStreamGrid.Lib.IndexedList
import OpenStreamGrid.Lib.TimedSystem
import OpenStreamGrid.Tracker.LeaseSweeps

/-!
# The leases of the origin's broadcasts

The origin registers its streams with the tracker, again every thirty seconds, and
each registration leases its broadcast for ninety. A registration is repeated until
it is answered; requests and responses are delayed, reordered and lost, and a
request that the origin has given up may still arrive. The tracker sweeps what is
not leased any more, and serves its other clients meanwhile. The two clocks may
differ.
-/

namespace OpenStreamGrid

def TRACKER_REQUEST_TIMEOUT_MS : ℕ := 5000
def LEASE_MS : ℕ := 90000
def LEASE_REFRESH_MS : ℕ := 30000

theorem registerRetry_pos : 0 < 1000 := by norm_num

theorem registerRetry_le : 1000 ≤ 30000 := by norm_num

/-- `REGISTER_RETRY_MS` and `REGISTER_MAX_RETRY_MS` -/
def registerBackoff : Backoff := ⟨1000, 30000, 2, registerRetry_pos, registerRetry_le, Nat.two_pos⟩

/-- Between four and six fifths of the delay, rounded. -/
def retryDelayMs (attempt : ℕ) (random : Draw) : ℕ :=
  max 1 ⌊(registerBackoff.delayAfter attempt : ℚ) * (8 / 10 + random.val * (4 / 10)) + 1 / 2⌋₊

/-- A request that is not repeated after this answer. -/
def IsPermanent (statusCode : ℕ) : Prop :=
  400 ≤ statusCode ∧ statusCode < 500 ∧ statusCode ≠ 408 ∧ statusCode ≠ 429

instance (statusCode : ℕ) : Decidable (IsPermanent statusCode) :=
  inferInstanceAs (Decidable (400 ≤ statusCode ∧ statusCode < 500 ∧ statusCode ≠ 408 ∧
    statusCode ≠ 429))

/-- What the two processes are started with. -/
structure LeaseRules where
  /-- `Date.now()` of the processes at the start. -/
  trackerEpoch : ℕ
  originEpoch : ℕ
  stalePeerMs : ℕ
  maxSegmentsPerPeer : ℕ
  streamIds : List BroadcastId
  /-- `/hls/<id>/stream.m3u8` at the public address of the origin -/
  playlistUrl : BroadcastId → String
  /-- How the tracker reads dates in other forms than ISO texts. -/
  other : String → Option ℤ

inductive RegistrationPhase where
  | requesting (timeout : ℚ≥0)
  | delaying (retry : ℚ≥0)
deriving DecidableEq

/-- A call of `registerBroadcast` that has not returned. -/
structure RegistrationCall where
  streamId : BroadcastId
  created : ℚ≥0
  attempt : ℕ
  phase : RegistrationPhase
deriving DecidableEq

/-- A request on its way to the tracker. -/
structure RegistrationPost where
  call : ℕ
  attempt : ℕ
  streamId : BroadcastId
  created : ℚ≥0
deriving DecidableEq

/-- Its answer on the way back: an error status, or none if the broadcast is registered. -/
structure RegistrationResponse where
  call : ℕ
  attempt : ℕ
  error : Option ℕ
deriving DecidableEq

/-- Where `run` of the origin stands. -/
inductive OriginPhase where
  | idle
  /-- The first registrations are made; the server is not started yet. -/
  | starting (created : ℚ≥0)
  | registering (created : ℚ≥0)
  | refreshing (next : ℚ≥0)
  /-- A first registration was refused for good. -/
  | failed
  | stopped (since : ℚ≥0)
deriving DecidableEq

structure BroadcastLeases where
  store : TrackerStore
  /-- When the tracker swept last, or started. -/
  swept : ℚ≥0
  phase : OriginPhase
  calls : OrderedMap ℕ RegistrationCall
  /-- How many calls there were. -/
  called : ℕ
  posts : List RegistrationPost
  responses : List RegistrationResponse
  /-- The requests to unregister on their way to the tracker. -/
  deletes : List BroadcastId
deriving DecidableEq

inductive LeaseEvent where
  | start
  | serverStarted
  | arrives (post : ℕ) (error : Option ℕ)
  | lost (post : ℕ)
  | answered (response : ℕ) (random : Draw)
  /-- The request fails, which need not mean that it does not arrive. -/
  | requestFails (call : ℕ) (random : Draw)
  | timesOut (call : ℕ) (random : Draw)
  | retries (call : ℕ)
  | refresh
  /-- `SIGTERM` or `SIGINT` -/
  | shutdown
  | crash
  | deleteArrives (delete : ℕ)
  | sweep
  /-- Another client of the tracker. -/
  | storeCall (op : StoreOp)

namespace LeaseRules

variable (rules : LeaseRules)

def trackerNow (clock : ℚ≥0) : ℕ := rules.trackerEpoch + ⌊clock⌋₊

def originNow (clock : ℚ≥0) : ℕ := rules.originEpoch + ⌊clock⌋₊

/-- The period of the tracker's cleanup. -/
def sweepMs : ℕ := max 1000 (rules.stalePeerMs / 2)

def leaseMetadata (created : ℚ≥0) : Metadata :=
  (((((∅ : Metadata).set "protocol" "hls").set "source" "test-pattern").set "abr" "true").set
    "qualities" "low,med,high").set "owner" "origin" |>.set "leaseExpiresAt"
      (IsoTime.toISOString (rules.originNow created + LEASE_MS))

/-- One of `createRegistrations`. -/
def registration (created : ℚ≥0) (streamId : BroadcastId) : BroadcastRegistration where
  id := streamId
  playlistUrl := rules.playlistUrl streamId
  metadata := some (rules.leaseMetadata created)

/-- The leases made until then have dates of four digits for the year. -/
def InYears (clock : ℚ≥0) : Prop := rules.originNow clock + LEASE_MS < 253402300800000

instance (clock : ℚ≥0) : Decidable (rules.InYears clock) := Nat.decLt _ _

theorem originNow_mono {clock later : ℚ≥0} (h : clock ≤ later) :
    rules.originNow clock ≤ rules.originNow later :=
  Nat.add_le_add_left (Nat.floor_mono h) _

theorem trackerNow_mono {clock later : ℚ≥0} (h : clock ≤ later) :
    rules.trackerNow clock ≤ rules.trackerNow later :=
  Nat.add_le_add_left (Nat.floor_mono h) _

variable {rules} in
theorem InYears.mono {clock later : ℚ≥0} (h : rules.InYears later) (hle : clock ≤ later) :
    rules.InYears clock :=
  (Nat.add_le_add_right (rules.originNow_mono hle) _).trans_lt h

end LeaseRules

namespace BroadcastLeases

def new (rules : LeaseRules) : BroadcastLeases where
  store := .new rules.maxSegmentsPerPeer
  swept := 0
  phase := .idle
  calls := ∅
  called := 0
  posts := []
  responses := []
  deletes := []

variable (rules : LeaseRules) (now : ℚ≥0) (s : BroadcastLeases)

/-! ## The origin -/

/-- One round of the loop of `registerBroadcast`, up to the answer. -/
def request (id : ℕ) (call : RegistrationCall) : BroadcastLeases :=
  { s with
    calls := s.calls.set id
      { call with phase := .requesting (now + TRACKER_REQUEST_TIMEOUT_MS) }
    posts := s.posts ++ [⟨id, call.attempt, call.streamId, call.created⟩] }

/-- The `catch` block. -/
def retryLater (id : ℕ) (call : RegistrationCall) (random : Draw) : BroadcastLeases :=
  { s with
    calls := s.calls.set id
      { call with
        attempt := call.attempt + 1
        phase := .delaying (now + retryDelayMs call.attempt random) } }

/-- A call of `registerBroadcast`. -/
def callRegister (created : ℚ≥0) (s : BroadcastLeases) (streamId : BroadcastId) : BroadcastLeases :=
  { s with called := s.called + 1 }.request now s.called ⟨streamId, created, 0, .delaying now⟩

def registerBroadcasts (created : ℚ≥0) : BroadcastLeases :=
  rules.streamIds.foldl (callRegister now created) s

/-- The call returns; when the first ones all have, the interval is armed. -/
def registered (id : ℕ) : BroadcastLeases :=
  let s := { s with calls := s.calls.delete id }
  match s.phase with
  | .registering _ =>
      if s.calls.size = 0 then { s with phase := .refreshing (now + LEASE_REFRESH_MS) } else s
  | _ => s

/-- The call throws; `run` does too if it was one of the first. -/
def rejected (id : ℕ) : BroadcastLeases :=
  let s := { s with calls := s.calls.delete id }
  match s.phase with
  | .registering _ => { s with phase := .failed }
  | _ => s

/-- The response of the attempt that is waited for; any other has been given up. -/
def onResponse (response : RegistrationResponse) (random : Draw) : BroadcastLeases :=
  match s.calls.get? response.call with
  | none => s
  | some call =>
      match call.phase with
      | .delaying _ => s
      | .requesting _ =>
          if call.attempt ≠ response.attempt then s
          else
            match response.error with
            | none => s.registered now response.call
            | some statusCode =>
                if IsPermanent statusCode then s.rejected response.call
                else s.retryLater now response.call call random

/-- The process ends. -/
def endProcess : BroadcastLeases := { s with phase := .stopped now, calls := ∅ }

/-! ## The tracker -/

/-- A registration is accepted, or answered with an error. -/
def onPost (post : RegistrationPost) (error : Option ℕ) : BroadcastLeases :=
  { s with
    store :=
      if error = none then
        (s.store.registerBroadcast (rules.trackerNow now)
          (rules.registration post.created post.streamId)).1
      else s.store
    responses := s.responses ++ [⟨post.call, post.attempt, error⟩] }

/-- A sweep that throws is logged. -/
def onSweep : BroadcastLeases :=
  { s with
    store := stateAfter s.store
      ((s.store.cleanUp rules.other rules.stalePeerMs (rules.trackerNow now)).map (·, ()))
    swept := now }

/-! ## Steps -/

/-- Nobody else registers or unregisters the origin's broadcasts. -/
def IsForeign : StoreOp → Prop
  | .registerBroadcast registration => registration.id ∉ rules.streamIds
  | .unregisterBroadcast id => id ∉ rules.streamIds
  | _ => True

instance decidableIsForeign : ∀ op, Decidable (IsForeign rules op)
  | .registerBroadcast registration => inferInstanceAs (Decidable (registration.id ∉ rules.streamIds))
  | .unregisterBroadcast id => inferInstanceAs (Decidable (id ∉ rules.streamIds))
  | .listBroadcasts | .getBroadcast _ | .joinPeer _ _ _ | .leavePeer _ _ | .listPeers _
  | .listPeersWithSegment _ _ | .getPeer _ _ | .listPeerStats _ | .reportSegments _ _ _ _
  | .applySegmentDelta _ _ _ _ | .heartbeat _ _ _ | .reportStats _ _ _
  | .reportPeerFailure _ _ _ | .removeStalePeers _ | .getBroadcastStats _ | .getGlobalStats =>
      isTrue trivial

def step : LeaseEvent → Option BroadcastLeases
  | .start => if s.phase = .idle then some { s with phase := .starting now } else none
  | .serverStarted =>
      match s.phase with
      | .starting created =>
          some ({ s with phase := .registering created }.registerBroadcasts rules now created)
      | _ => none
  | .arrives post error =>
      match s.posts[post]? with
      | some found => some ({ s with posts := s.posts.eraseIdx post }.onPost rules now found error)
      | none => none
  | .lost post =>
      if post < s.posts.length then some { s with posts := s.posts.eraseIdx post } else none
  | .answered response random =>
      match s.responses[response]? with
      | some found =>
          some ({ s with responses := s.responses.eraseIdx response }.onResponse now found random)
      | none => none
  | .requestFails id random =>
      match s.calls.get? id with
      | some call =>
          match call.phase with
          | .requesting _ => some (s.retryLater now id call random)
          | .delaying _ => none
      | none => none
  | .timesOut id random =>
      match s.calls.get? id with
      | some call =>
          if call.phase = .requesting now then some (s.retryLater now id call random) else none
      | none => none
  | .retries id =>
      match s.calls.get? id with
      | some call => if call.phase = .delaying now then some (s.request now id call) else none
      | none => none
  | .refresh =>
      if s.phase = .refreshing now then
        some ({ s with phase := .refreshing (now + LEASE_REFRESH_MS) }.registerBroadcasts rules now
          now)
      else none
  | .shutdown =>
      match s.phase with
      | .idle | .stopped _ => none
      | _ => some { s.endProcess now with deletes := s.deletes ++ rules.streamIds }
  | .crash =>
      match s.phase with
      | .idle | .stopped _ => none
      | _ => some (s.endProcess now)
  | .deleteArrives delete =>
      match s.deletes[delete]? with
      | some id =>
          some { s with
            store := stateAfter s.store ((s.store.unregisterBroadcast id).map (·, ()))
            deletes := s.deletes.eraseIdx delete }
      | none => none
  | .sweep => if now = s.swept + rules.sweepMs then some (s.onSweep rules now) else none
  | .storeCall op =>
      if IsForeign rules op then
        some { s with
          store := (TrackerStore.backend rules.maxSegmentsPerPeer).next s.store
            (rules.trackerNow now) op }
      else none

/-- When something is due: the next sweep, the next refresh, a timeout or a retry. -/
def timers : List ℚ≥0 :=
  (s.swept + rules.sweepMs) ::
    (match s.phase with
      | .refreshing next => [next]
      | _ => []) ++
    s.calls.values.map fun call =>
      match call.phase with
      | .requesting timeout => timeout
      | .delaying retry => retry

def system : TimedSystem BroadcastLeases LeaseEvent where
  init s := s = new rules
  timers := timers rules
  event := step rules

/-! ## The calls of a round -/

variable {rules now s} {s' : BroadcastLeases} {clock later : ℚ≥0}

/-- What a round of registrations adds; nothing else changes. -/
structure Registers (created : ℚ≥0) (ids : List BroadcastId) (s s' : BroadcastLeases) : Prop where
  store : s'.store = s.store
  swept : s'.swept = s.swept
  phase : s'.phase = s.phase
  responses : s'.responses = s.responses
  deletes : s'.deletes = s.deletes
  called : s.called ≤ s'.called
  calls : ∀ k call, s'.calls.get? k = some call → s.calls.get? k = some call ∨
    s.called ≤ k ∧ k < s'.called ∧ call.streamId ∈ ids ∧ call.created = created
  kept : ∀ k call, s.calls.get? k = some call → k < s.called → s'.calls.get? k = some call
  posts : ∀ post ∈ s'.posts, post ∈ s.posts ∨
    post.created = created ∧ ∃ call, s'.calls.get? post.call = some call ∧
      s.called ≤ post.call ∧ call.streamId = post.streamId ∧ call.created = created
  reached : ∀ id ∈ ids, ∃ k call, s.called ≤ k ∧ s'.calls.get? k = some call ∧ call.streamId = id

theorem registers_registerBroadcasts (now created : ℚ≥0) (ids : List BroadcastId) :
    ∀ s : BroadcastLeases, Registers created ids s (ids.foldl (callRegister now created) s) := by
  induction ids with
  | nil =>
      intro s
      exact ⟨rfl, rfl, rfl, rfl, rfl, le_rfl, fun _ _ h => Or.inl h, fun _ _ h _ => h,
        fun _ h => Or.inl h, fun _ h => absurd h List.not_mem_nil⟩
  | cons id ids ih =>
      intro s
      have h := ih (callRegister now created s id)
      have hget : ∀ k, (callRegister now created s id).calls.get? k =
          if k = s.called then some ⟨id, created, 0, .requesting (now + TRACKER_REQUEST_TIMEOUT_MS)⟩
          else s.calls.get? k := fun k => OrderedMap.get?_set ..
      have hfirst : ∃ call, (ids.foldl (callRegister now created)
          (callRegister now created s id)).calls.get? s.called = some call ∧
            call.streamId = id ∧ call.created = created :=
        ⟨_, h.kept s.called _ ((hget _).trans (if_pos rfl)) (Nat.lt_succ_self _), rfl, rfl⟩
      refine
        { store := h.store
          swept := h.swept
          phase := h.phase
          responses := h.responses
          deletes := h.deletes
          called := Nat.le_of_succ_le h.called
          calls := fun k call hk => ?_
          kept := fun k call hk hlt => ?_
          posts := fun post hpost => ?_
          reached := fun id' hid' => ?_ }
      · rcases h.calls k call hk with hbefore | ⟨hle, hlt, hmem, hcreated⟩
        · rw [hget] at hbefore
          split_ifs at hbefore with heq
          · obtain rfl := Option.some.inj hbefore
            subst heq
            exact Or.inr ⟨le_rfl, h.called, List.mem_cons_self, rfl⟩
          · exact Or.inl hbefore
        · exact Or.inr ⟨Nat.le_of_succ_le hle, hlt, List.mem_cons_of_mem _ hmem, hcreated⟩
      · refine h.kept k call ?_ (Nat.lt_succ_of_lt hlt)
        rw [hget, if_neg hlt.ne, hk]
      · rcases h.posts post hpost with hbefore | ⟨hcreated, call, hcall, hle, hsame⟩
        · rcases List.mem_append.mp hbefore with hold | hnew
          · exact Or.inl hold
          · obtain rfl := List.mem_singleton.mp hnew
            obtain ⟨call, hcall, hid, hcreated⟩ := hfirst
            exact Or.inr ⟨rfl, call, hcall, le_rfl, hid, hcreated⟩
        · exact Or.inr ⟨hcreated, call, hcall, Nat.le_of_succ_le hle, hsame⟩
      · rcases List.mem_cons.mp hid' with rfl | hlater
        · obtain ⟨call, hcall, hid, -⟩ := hfirst
          exact ⟨s.called, call, le_rfl, hcall, hid⟩
        · obtain ⟨k, call, hle, hcall, hid⟩ := h.reached id' hlater
          exact ⟨k, call, Nat.le_of_succ_le hle, hcall, hid⟩

/-! ## What was sent -/

/-- Until when the origin has made registrations. -/
def alive (clock : ℚ≥0) (s : BroadcastLeases) : ℚ≥0 :=
  match s.phase with
  | .stopped since => since
  | _ => clock

/-- The phases of a process that has not ended can be told from those that are over. -/
def IsStopped (s : BroadcastLeases) : Prop := ∃ since, s.phase = .stopped since

theorem alive_of_running (h : ¬ s.IsStopped) (clock : ℚ≥0) : s.alive clock = clock := by
  unfold alive
  split
  · rename_i since hphase
    exact absurd ⟨since, hphase⟩ h
  · rfl

theorem running_of_phase {phase : OriginPhase} (h : s.phase = phase)
    (hne : ∀ since, phase ≠ .stopped since) : ¬ s.IsStopped :=
  fun ⟨since, hsince⟩ => hne since (h.symm.trans hsince)

/-- What is under way was made for the origin's streams, while it was alive. -/
structure Sent (rules : LeaseRules) (clock : ℚ≥0) (s : BroadcastLeases) : Prop where
  calls : ∀ k call, s.calls.get? k = some call →
    call.streamId ∈ rules.streamIds ∧ call.created ≤ clock
  posts : ∀ post ∈ s.posts, post.streamId ∈ rules.streamIds ∧ post.created ≤ s.alive clock
  starting : ∀ created, s.phase = .starting created → created ≤ clock
  stopped : ∀ since, s.phase = .stopped since → since ≤ clock ∧ ∀ k, s.calls.get? k = none

/-- What an answer, a failure or a timeout changes is in the calls. -/
structure Settles (s s' : BroadcastLeases) : Prop where
  store : s'.store = s.store
  swept : s'.swept = s.swept
  posts : s'.posts = s.posts
  calls : ∀ k call', s'.calls.get? k = some call' → ∃ call, s.calls.get? k = some call ∧
    call'.streamId = call.streamId ∧ call'.created = call.created
  starting : ∀ created, s'.phase = .starting created → s.phase = .starting created
  stopped : ∀ since, s'.phase = .stopped since ↔ s.phase = .stopped since

theorem Settles.alive (h : Settles s s') (clock : ℚ≥0) : s'.alive clock = s.alive clock := by
  by_cases hstopped : s.IsStopped
  · obtain ⟨since, hsince⟩ := hstopped
    unfold BroadcastLeases.alive
    rw [hsince, (h.stopped since).mpr hsince]
  · rw [alive_of_running hstopped, alive_of_running]
    rintro ⟨since, hsince⟩
    exact hstopped ⟨since, (h.stopped since).mp hsince⟩

theorem settles_retryLater {id : ℕ} {call : RegistrationCall}
    (hcall : s.calls.get? id = some call) (random : Draw) :
    Settles s (s.retryLater now id call random) where
  store := rfl
  swept := rfl
  posts := rfl
  calls k call' h := by
    rw [retryLater, OrderedMap.get?_set] at h
    split_ifs at h with hk
    · obtain rfl := Option.some.inj h
      exact ⟨call, hk ▸ hcall, rfl, rfl⟩
    · exact ⟨call', h, rfl, rfl⟩
  starting _ h := h
  stopped _ := Iff.rfl

theorem get?_delete_some {id k : ℕ} {call : RegistrationCall}
    (h : (s.calls.delete id).get? k = some call) : k ≠ id ∧ s.calls.get? k = some call := by
  rw [OrderedMap.get?_delete] at h
  split_ifs at h with hk
  exact ⟨hk, h⟩

/-- A call is over; only the first ones move the origin on. -/
theorem settles_finished (id : ℕ) {phase : OriginPhase}
    (hphase : phase = s.phase ∨ (∃ created, s.phase = .registering created) ∧
      (∀ created, phase ≠ .starting created) ∧ ∀ since, phase ≠ .stopped since) :
    Settles s { s with calls := s.calls.delete id, phase } where
  store := rfl
  swept := rfl
  posts := rfl
  calls k call h := ⟨call, (get?_delete_some h).2, rfl, rfl⟩
  starting created h := by
    rcases hphase with rfl | ⟨-, hstarting, -⟩
    · exact h
    · exact absurd h (hstarting created)
  stopped since := by
    rcases hphase with rfl | ⟨⟨created, hbefore⟩, -, hstopped⟩
    · rfl
    · rw [hbefore]
      exact iff_of_false (hstopped since) nofun

theorem settles_registered (id : ℕ) : Settles s (s.registered now id) := by
  unfold registered
  dsimp only
  split
  · rename_i created hphase
    split_ifs
    · exact settles_finished id (Or.inr ⟨⟨created, hphase⟩, nofun, nofun⟩)
    · exact settles_finished id (Or.inl rfl)
  · exact settles_finished id (Or.inl rfl)

theorem settles_rejected (id : ℕ) : Settles s (s.rejected id) := by
  unfold rejected
  dsimp only
  split
  · rename_i created hphase
    exact settles_finished id (Or.inr ⟨⟨created, hphase⟩, nofun, nofun⟩)
  · exact settles_finished id (Or.inl rfl)

theorem Settles.refl (s : BroadcastLeases) : Settles s s :=
  ⟨rfl, rfl, rfl, fun _ call h => ⟨call, h, rfl, rfl⟩, fun _ h => h, fun _ => Iff.rfl⟩

theorem settles_onResponse (response : RegistrationResponse) (random : Draw) :
    Settles s (s.onResponse now response random) := by
  unfold onResponse
  cases hcall : s.calls.get? response.call with
  | none => exact .refl s
  | some call =>
      dsimp only
      split
      · exact .refl s
      · split_ifs
        · exact .refl s
        · split
          · exact settles_registered response.call
          · split_ifs
            · exact settles_rejected response.call
            · exact settles_retryLater hcall random

namespace Sent

theorem settles (h : Sent rules clock s) (hs : Settles s s') : Sent rules clock s' where
  calls k call' hk := by
    obtain ⟨call, hcall, hid, hcreated⟩ := hs.calls k call' hk
    rw [hid, hcreated]
    exact h.calls k call hcall
  posts post hpost := by
    rw [hs.alive]
    exact h.posts post (hs.posts ▸ hpost)
  starting created hphase := h.starting created (hs.starting created hphase)
  stopped since hphase := by
    have hbefore := h.stopped since ((hs.stopped since).mp hphase)
    refine ⟨hbefore.1, fun k => ?_⟩
    rcases Option.eq_none_or_eq_some (s'.calls.get? k) with hnone | ⟨call', hk⟩
    · exact hnone
    · obtain ⟨call, hcall, -⟩ := hs.calls k call' hk
      rw [hbefore.2] at hcall
      cases hcall

/-- What only changes the store and what is on the way to the tracker. -/
theorem of_same (h : Sent rules clock s) (hphase : s'.phase = s.phase) (hcalls : s'.calls = s.calls)
    (hposts : ∀ post ∈ s'.posts, post ∈ s.posts) : Sent rules clock s' where
  calls k call hk := h.calls k call (hcalls ▸ hk)
  posts post hpost := by
    have halive : s'.alive clock = s.alive clock := by
      unfold BroadcastLeases.alive
      rw [hphase]
    rw [halive]
    exact h.posts post (hposts post hpost)
  starting created hstarting := h.starting created (hphase ▸ hstarting)
  stopped since hstopped := hcalls ▸ h.stopped since (hphase ▸ hstopped)

/-- A round of a process that has not ended. -/
theorem registers (h : Sent rules clock s) {created : ℚ≥0} (hcreated : created ≤ clock)
    (hrunning : ¬ s.IsStopped) (hr : Registers created rules.streamIds s s') :
    Sent rules clock s' := by
  have hrunning' : ¬ s'.IsStopped := fun ⟨since, hsince⟩ => hrunning ⟨since, hr.phase ▸ hsince⟩
  refine
    { calls := fun k call hk => ?_
      posts := fun post hpost => ?_
      starting := fun created hstarting => h.starting created (hr.phase ▸ hstarting)
      stopped := fun since hstopped => absurd ⟨since, hr.phase ▸ hstopped⟩ hrunning }
  · rcases hr.calls k call hk with hold | ⟨-, -, hid, rfl⟩
    · exact h.calls k call hold
    · exact ⟨hid, hcreated⟩
  · rw [alive_of_running hrunning']
    rcases hr.posts post hpost with hold | ⟨rfl, call, hcall, hle, hid, hsame⟩
    · have hbefore := h.posts post hold
      rwa [alive_of_running hrunning] at hbefore
    · rcases hr.calls post.call call hcall with hold | ⟨-, -, hmem, -⟩
      · exact ⟨hid ▸ (h.calls _ call hold).1, hcreated⟩
      · exact ⟨hid ▸ hmem, hcreated⟩

theorem request (h : Sent rules clock s) {id : ℕ} {call : RegistrationCall}
    (hcall : s.calls.get? id = some call) (now : ℚ≥0) :
    Sent rules clock (s.request now id call) := by
  have hrunning : ¬ s.IsStopped := by
    rintro ⟨since, hsince⟩
    rw [(h.stopped since hsince).2 id] at hcall
    cases hcall
  refine
    { calls := fun k call' hk => ?_
      posts := fun post hpost => ?_
      starting := fun created hstarting => h.starting created hstarting
      stopped := fun since hstopped => absurd ⟨since, hstopped⟩ hrunning }
  · rw [BroadcastLeases.request, OrderedMap.get?_set] at hk
    split_ifs at hk
    · obtain rfl := Option.some.inj hk
      exact h.calls id call hcall
    · exact h.calls k call' hk
  · have halive : (s.request now id call).alive clock = s.alive clock := rfl
    rw [halive]
    rcases List.mem_append.mp hpost with hold | hnew
    · exact h.posts post hold
    · obtain rfl := List.mem_singleton.mp hnew
      rw [alive_of_running hrunning]
      exact h.calls id call hcall

/-- The process ends: what it has sent is on its way. -/
theorem endProcess (h : Sent rules clock s) (hrunning : ¬ s.IsStopped) :
    Sent rules clock (s.endProcess clock) where
  calls k call hk := by cases hk
  posts post hpost := by
    have hbefore := h.posts post hpost
    rwa [alive_of_running hrunning] at hbefore
  starting created hstarting := by cases hstarting
  stopped since hstopped := by
    obtain rfl := OriginPhase.stopped.inj hstopped
    exact ⟨le_rfl, fun k => rfl⟩

theorem elapse (h : Sent rules clock s) (hle : clock ≤ later) : Sent rules later s where
  calls k call hk := (h.calls k call hk).imp_right fun hcreated => hcreated.trans hle
  posts post hpost := by
    refine (h.posts post hpost).imp_right fun hcreated => hcreated.trans ?_
    unfold alive
    split
    · exact le_rfl
    · exact hle
  starting created hstarting := (h.starting created hstarting).trans hle
  stopped since hstopped := (h.stopped since hstopped).imp_left fun hsince => hsince.trans hle

end Sent

/-! ## What the tracker has recorded -/

variable {alive swept : ℚ≥0} {store store' : TrackerStore} {id : BroadcastId}

/-- The record of a broadcast of the origin is that of its last registration. Where its lease had
run out at the last sweep, it was registered since. -/
structure Recorded (rules : LeaseRules) (clock alive swept : ℚ≥0) (id : BroadcastId)
    (broadcast : Broadcast) : Prop where
  leased : ∃ created ≤ alive, broadcast.metadata = some (rules.leaseMetadata created)
  playlistUrl : broadcast.playlistUrl = rules.playlistUrl id
  updated : broadcast.updatedAt ≤ rules.trackerNow clock
  kept : broadcast.LeaseRunOut rules.other (rules.trackerNow swept) →
    rules.trackerNow swept ≤ broadcast.updatedAt

structure Records (rules : LeaseRules) (clock alive swept : ℚ≥0) (store : TrackerStore) : Prop where
  named : store.Named
  recorded : ∀ id ∈ rules.streamIds, ∀ broadcast, store.record? id = some broadcast →
    Recorded rules clock alive swept id broadcast

/-- Another client leaves the records of the origin's broadcasts as they are. -/
theorem record?_of_foreign {op : StoreOp} (hforeign : IsForeign rules op)
    (hid : id ∈ rules.streamIds) {time : Timestamp} :
    ((TrackerStore.backend rules.maxSegmentsPerPeer).next store time op).record? id =
      store.record? id := by
  apply (TrackerStore.next_effect store rules.maxSegmentsPerPeer time op).record?
  · rintro registration rfl rfl
    exact hforeign hid
  · rintro rfl
    exact hforeign hid

namespace Records

theorem new (rules : LeaseRules) (clock alive swept : ℚ≥0) :
    Records rules clock alive swept (.new rules.maxSegmentsPerPeer) :=
  ⟨TrackerStore.named_new _, fun _ _ _ h => by cases h⟩

theorem elapse {alive' : ℚ≥0} (h : Records rules clock alive swept store) (hle : clock ≤ later)
    (halive : alive ≤ alive') : Records rules later alive' swept store where
  named := h.named
  recorded id hid broadcast hrecord := by
    obtain ⟨⟨created, hcreated, hmetadata⟩, hurl, hupdated, hkept⟩ :=
      h.recorded id hid broadcast hrecord
    refine ⟨⟨created, hcreated.trans halive, hmetadata⟩, hurl, hupdated.trans ?_, hkept⟩
    exact_mod_cast rules.trackerNow_mono hle

/-- A store with no other records of the origin's broadcasts. -/
theorem of_records (h : Records rules clock alive swept store) (hnamed : store'.Named)
    (hrecords : ∀ id ∈ rules.streamIds, ∀ broadcast, store'.record? id = some broadcast →
      store.record? id = some broadcast) : Records rules clock alive swept store' :=
  ⟨hnamed, fun id hid broadcast hrecord =>
    h.recorded id hid broadcast (hrecords id hid broadcast hrecord)⟩

theorem register (h : Records rules clock alive swept store) (hswept : swept ≤ clock)
    {created : ℚ≥0} (hcreated : created ≤ alive) (streamId : BroadcastId) :
    Records rules clock alive swept
      (store.registerBroadcast (rules.trackerNow clock) (rules.registration created streamId)).1 where
  named := TrackerStore.named_registerBroadcast h.named _
  recorded id hid broadcast hrecord := by
    rw [TrackerStore.record?_registerBroadcast h.named] at hrecord
    split_ifs at hrecord with hsame
    · obtain rfl := Option.some.inj hrecord
      refine ⟨⟨created, hcreated, rfl⟩, by rw [hsame]; rfl, le_rfl, fun _ => ?_⟩
      exact Int.ofNat_le.mpr (rules.trackerNow_mono hswept)
    · exact h.recorded id hid broadcast hrecord

theorem storeCall (h : Records rules clock alive swept store) {op : StoreOp}
    (hforeign : IsForeign rules op) {time : Timestamp} :
    Records rules clock alive swept
      ((TrackerStore.backend rules.maxSegmentsPerPeer).next store time op) := by
  have hnamed := (TrackerStore.next_effect store rules.maxSegmentsPerPeer time op).named h.named
  exact h.of_records hnamed fun id hid _ hrecord => record?_of_foreign hforeign hid ▸ hrecord

theorem unregister (h : Records rules clock alive swept store) (id : BroadcastId) :
    Records rules clock alive swept
      (stateAfter store ((store.unregisterBroadcast id).map (·, ()))) :=
  h.of_records (fun id _ hrecord => h.named id _ (TrackerStore.record?_of_unregister hrecord))
    fun _ _ _ hrecord => TrackerStore.record?_of_unregister hrecord

/-- After a sweep nothing is left whose lease has run out. -/
theorem sweep (h : Records rules clock alive swept store) :
    Records rules clock alive clock (stateAfter store
      ((store.cleanUp rules.other rules.stalePeerMs (rules.trackerNow clock)).map (·, ()))) where
  named := TrackerStore.named_cleanUp h.named _
  recorded id hid broadcast hsome := by
    obtain ⟨hbefore, hvalid⟩ := TrackerStore.record?_of_cleanUp h.named _ hsome
    obtain ⟨hleased, hurl, hupdated, -⟩ := h.recorded id hid broadcast hbefore
    exact ⟨hleased, hurl, hupdated, fun hout => absurd hout hvalid⟩

end Records

/-! ## Every run -/

/-- What holds whatever happens to the requests. -/
structure Leased (rules : LeaseRules) (clock : ℚ≥0) (s : BroadcastLeases) : Prop where
  sent : Sent rules clock s
  swept : s.swept ≤ clock
  due : clock ≤ s.swept + rules.sweepMs
  records : Records rules clock (s.alive clock) s.swept s.store

namespace Leased

theorem new (rules : LeaseRules) : Leased rules 0 (new rules) where
  sent := ⟨nofun, nofun, nofun, nofun⟩
  swept := le_rfl
  due := zero_le
  records := .new rules 0 _ _

theorem settles (h : Leased rules clock s) (hs : Settles s s') : Leased rules clock s' where
  sent := h.sent.settles hs
  swept := hs.swept ▸ h.swept
  due := hs.swept ▸ h.due
  records := by
    rw [hs.alive, hs.swept, hs.store]
    exact h.records

/-- What only changes the store and what is on the way to the tracker. -/
theorem of_same (h : Leased rules clock s) (hphase : s'.phase = s.phase)
    (hcalls : s'.calls = s.calls) (hposts : ∀ post ∈ s'.posts, post ∈ s.posts)
    (hswept : s'.swept = s.swept)
    (hrecords : Records rules clock (s.alive clock) s.swept s'.store) : Leased rules clock s' where
  sent := h.sent.of_same hphase hcalls hposts
  swept := hswept ▸ h.swept
  due := hswept ▸ h.due
  records := by
    have halive : s'.alive clock = s.alive clock := by
      unfold BroadcastLeases.alive
      rw [hphase]
    rw [halive, hswept]
    exact hrecords

/-- A process that has not ended goes on. -/
theorem running (h : Leased rules clock s) (hrunning : ¬ s.IsStopped) (hrunning' : ¬ s'.IsStopped)
    (hstore : s'.store = s.store) (hswept : s'.swept = s.swept) (hsent : Sent rules clock s') :
    Leased rules clock s' where
  sent := hsent
  swept := hswept ▸ h.swept
  due := hswept ▸ h.due
  records := by
    have hrecords := h.records
    rw [alive_of_running hrunning] at hrecords
    rw [alive_of_running hrunning', hswept, hstore]
    exact hrecords

/-- `run` moves on. -/
theorem goOn (h : Leased rules clock s) (hrunning : ¬ s.IsStopped) {phase : OriginPhase}
    (hne : ∀ since, phase ≠ .stopped since)
    (hstarting : ∀ created, phase = .starting created → created ≤ clock) :
    Leased rules clock { s with phase } := by
  refine h.running hrunning (running_of_phase rfl hne) rfl rfl ⟨h.sent.calls, fun post hpost => ?_,
    hstarting, fun since hsince => absurd hsince (hne since)⟩
  have hbefore := h.sent.posts post hpost
  rw [alive_of_running hrunning] at hbefore
  rwa [alive_of_running (running_of_phase rfl hne)]

theorem registers (h : Leased rules clock s) {created : ℚ≥0} (hcreated : created ≤ clock)
    (hrunning : ¬ s.IsStopped) (hr : Registers created rules.streamIds s s') :
    Leased rules clock s' :=
  h.running hrunning (fun ⟨since, hsince⟩ => hrunning ⟨since, hr.phase ▸ hsince⟩) hr.store
    hr.swept (h.sent.registers hcreated hrunning hr)

theorem endProcess (h : Leased rules clock s) (hrunning : ¬ s.IsStopped) :
    Leased rules clock (s.endProcess clock) where
  sent := h.sent.endProcess hrunning
  swept := h.swept
  due := h.due
  records := by
    have hrecords := h.records
    rw [alive_of_running hrunning] at hrecords
    exact hrecords

theorem onPost (h : Leased rules clock s) {post : ℕ} {found : RegistrationPost}
    (hfound : s.posts[post]? = some found) (error : Option ℕ) :
    Leased rules clock ({ s with posts := s.posts.eraseIdx post }.onPost rules clock found error) := by
  have hsent := h.sent.posts found (List.mem_of_getElem? hfound)
  refine h.of_same rfl rfl (fun post hpost => List.mem_of_mem_eraseIdx hpost) rfl ?_
  unfold BroadcastLeases.onPost
  dsimp only
  split_ifs
  · exact h.records.register h.swept hsent.2 found.streamId
  · exact h.records

theorem elapse (h : Leased rules clock s) (hle : clock ≤ later)
    (hdue : ∀ due ∈ timers rules s, later ≤ due) : Leased rules later s where
  sent := h.sent.elapse hle
  swept := h.swept.trans hle
  due := hdue _ List.mem_cons_self
  records := h.records.elapse hle (by
    unfold BroadcastLeases.alive
    split
    · exact le_rfl
    · exact hle)

theorem step (h : Leased rules clock s) {event : LeaseEvent}
    (hstep : step rules clock s event = some s') : Leased rules clock s' := by
  cases event with
  | start =>
      simp only [BroadcastLeases.step] at hstep
      split_ifs at hstep with hidle
      obtain rfl := Option.some.inj hstep
      exact h.goOn (running_of_phase hidle (by simp)) (by simp) fun created hstarting =>
        (OriginPhase.starting.inj hstarting).ge
  | serverStarted =>
      simp only [BroadcastLeases.step] at hstep
      split at hstep
      · rename_i created hstarting
        obtain rfl := Option.some.inj hstep
        exact (h.goOn (running_of_phase hstarting (by simp)) (by simp) (by simp)).registers
          (h.sent.starting created hstarting) (running_of_phase rfl (by simp))
          (registers_registerBroadcasts _ _ _ _)
      · cases hstep
  | arrives post error =>
      simp only [BroadcastLeases.step] at hstep
      split at hstep
      · rename_i found hfound
        obtain rfl := Option.some.inj hstep
        exact h.onPost hfound error
      · cases hstep
  | lost post =>
      simp only [BroadcastLeases.step] at hstep
      split_ifs at hstep
      obtain rfl := Option.some.inj hstep
      exact h.of_same rfl rfl (fun post hpost => List.mem_of_mem_eraseIdx hpost) rfl h.records
  | answered response random =>
      simp only [BroadcastLeases.step] at hstep
      split at hstep
      · rename_i found hfound
        obtain rfl := Option.some.inj hstep
        have hread : Leased rules clock { s with responses := s.responses.eraseIdx response } :=
          h.of_same rfl rfl (fun _ hpost => hpost) rfl h.records
        exact hread.settles (settles_onResponse found random)
      · cases hstep
  | requestFails k random =>
      simp only [BroadcastLeases.step] at hstep
      split at hstep
      · rename_i call hcall
        split at hstep
        · obtain rfl := Option.some.inj hstep
          exact h.settles (settles_retryLater hcall random)
        · cases hstep
      · cases hstep
  | timesOut k random =>
      simp only [BroadcastLeases.step] at hstep
      split at hstep
      · rename_i call hcall
        split_ifs at hstep
        obtain rfl := Option.some.inj hstep
        exact h.settles (settles_retryLater hcall random)
      · cases hstep
  | retries k =>
      simp only [BroadcastLeases.step] at hstep
      split at hstep
      · rename_i call hcall
        split_ifs at hstep
        obtain rfl := Option.some.inj hstep
        have hrunning : ¬ s.IsStopped := by
          rintro ⟨since, hsince⟩
          rw [(h.sent.stopped since hsince).2 k] at hcall
          cases hcall
        exact h.running hrunning hrunning rfl rfl (h.sent.request hcall clock)
      · cases hstep
  | refresh =>
      simp only [BroadcastLeases.step] at hstep
      split_ifs at hstep with hrefreshing
      obtain rfl := Option.some.inj hstep
      exact (h.goOn (running_of_phase hrefreshing (by simp)) (by simp) (by simp)).registers le_rfl
        (running_of_phase rfl (by simp)) (registers_registerBroadcasts _ _ _ _)
  | shutdown =>
      simp only [BroadcastLeases.step] at hstep
      split at hstep
      · cases hstep
      · cases hstep
      · rename_i hstopped
        obtain rfl := Option.some.inj hstep
        have hend := h.endProcess fun ⟨since, hsince⟩ => hstopped since hsince
        exact hend.of_same rfl rfl (fun _ hpost => hpost) rfl hend.records
  | crash =>
      simp only [BroadcastLeases.step] at hstep
      split at hstep
      · cases hstep
      · cases hstep
      · rename_i hstopped
        obtain rfl := Option.some.inj hstep
        exact h.endProcess fun ⟨since, hsince⟩ => hstopped since hsince
  | deleteArrives delete =>
      simp only [BroadcastLeases.step] at hstep
      split at hstep
      · rename_i streamId _
        obtain rfl := Option.some.inj hstep
        exact h.of_same rfl rfl (fun _ hpost => hpost) rfl (h.records.unregister streamId)
      · cases hstep
  | sweep =>
      simp only [BroadcastLeases.step] at hstep
      split_ifs at hstep with hnow
      obtain rfl := Option.some.inj hstep
      exact ⟨h.sent.of_same rfl rfl fun _ hpost => hpost, le_rfl, le_self_add, h.records.sweep⟩
  | storeCall op =>
      simp only [BroadcastLeases.step] at hstep
      split_ifs at hstep with hforeign
      obtain rfl := Option.some.inj hstep
      exact h.of_same rfl rfl (fun _ hpost => hpost) rfl (h.records.storeCall hforeign)

end Leased

/-- A lease runs for ninety seconds of the origin's clock. -/
theorem leaseEnd?_of_leased {created : ℚ≥0} (hyears : rules.InYears created)
    {broadcast : Broadcast} (h : broadcast.metadata = some (rules.leaseMetadata created)) :
    broadcast.leaseEnd? rules.other = some ((rules.originNow created : ℤ) + LEASE_MS) := by
  have howner : (rules.leaseMetadata created).get? "owner" = some "origin" := by
    simp [LeaseRules.leaseMetadata, OrderedMap.get?_set]
  have hlease : (rules.leaseMetadata created).get? "leaseExpiresAt" =
      some (IsoTime.toISOString (rules.originNow created + LEASE_MS)) := by
    simp [LeaseRules.leaseMetadata, OrderedMap.get?_set]
  have hparse := IsoTime.parse_toISOString (t := rules.originNow created + LEASE_MS) (by
    unfold IsoTime.InFourDigitYears
    unfold LeaseRules.InYears at hyears
    omega)
  have hne : IsoTime.toISOString (rules.originNow created + LEASE_MS) ≠ "" := by
    intro heq
    rw [heq] at hparse
    cases hparse
  unfold Broadcast.leaseEnd?
  rw [h, Option.bind_some, if_pos howner, hlease, Option.bind_some, if_neg hne]
  unfold IsoTime.dateParse
  rw [hparse]
  rfl

/-- An origin that is gone, of which nothing is on the way to the tracker; its records are among
those that it has left. -/
structure Gone (rules : LeaseRules) (since : ℚ≥0) (left : TrackerStore) (s : BroadcastLeases) :
    Prop where
  stopped : s.phase = .stopped since
  posts : s.posts = []
  records : ∀ id ∈ rules.streamIds, ∀ broadcast, s.store.record? id = some broadcast →
    left.record? id = some broadcast

/-- It leaves no new ones. -/
theorem Gone.step {since : ℚ≥0} {left : TrackerStore} (hg : Gone rules since left s)
    (h : Leased rules clock s) {event : LeaseEvent} (hstep : step rules clock s event = some s') :
    Gone rules since left s' := by
  have hcalls := (h.sent.stopped since hg.stopped).2
  cases event with
  | start | refresh => simp [BroadcastLeases.step, hg.stopped] at hstep
  | serverStarted | shutdown | crash =>
      simp only [BroadcastLeases.step, hg.stopped] at hstep
      cases hstep
  | arrives post error =>
      simp only [BroadcastLeases.step, hg.posts, List.getElem?_nil] at hstep
      cases hstep
  | lost post =>
      simp only [BroadcastLeases.step, hg.posts] at hstep
      split_ifs at hstep with hlt
      cases hlt
  | requestFails k random | timesOut k random | retries k =>
      simp only [BroadcastLeases.step, hcalls] at hstep
      cases hstep
  | answered response random =>
      simp only [BroadcastLeases.step] at hstep
      split at hstep
      · rename_i found _
        obtain rfl := Option.some.inj hstep
        have hs : Settles { s with responses := s.responses.eraseIdx response }
            (({ s with responses := s.responses.eraseIdx response } : BroadcastLeases).onResponse
              clock found random) := settles_onResponse found random
        exact ⟨(hs.stopped since).mpr hg.stopped, hs.posts.trans hg.posts,
          fun id hid broadcast hrecord => hg.records id hid broadcast (by rwa [hs.store] at hrecord)⟩
      · cases hstep
  | deleteArrives delete =>
      simp only [BroadcastLeases.step] at hstep
      split at hstep
      · obtain rfl := Option.some.inj hstep
        exact ⟨hg.stopped, hg.posts, fun id hid broadcast hrecord =>
          hg.records id hid broadcast (TrackerStore.record?_of_unregister hrecord)⟩
      · cases hstep
  | sweep =>
      simp only [BroadcastLeases.step] at hstep
      split_ifs at hstep
      obtain rfl := Option.some.inj hstep
      exact ⟨hg.stopped, hg.posts, fun id hid broadcast hrecord =>
        hg.records id hid broadcast (TrackerStore.record?_of_cleanUp h.records.named _ hrecord).1⟩
  | storeCall op =>
      simp only [BroadcastLeases.step] at hstep
      split_ifs at hstep with hforeign
      obtain rfl := Option.some.inj hstep
      exact ⟨hg.stopped, hg.posts, fun id hid broadcast hrecord =>
        hg.records id hid broadcast (record?_of_foreign hforeign hid ▸ hrecord)⟩

/-- One stream, on an origin whose clock is five seconds ahead. -/
def oneStream : LeaseRules where
  trackerEpoch := 1700000000000
  originEpoch := 1700000005000
  stalePeerMs := 30000
  maxSegmentsPerPeer := 100
  streamIds := ["live"]
  playlistUrl id := "http://origin:8080/hls/" ++ id ++ "/stream.m3u8"
  other _ := none

end BroadcastLeases

end OpenStreamGrid
