import Mathlib.Data.Int.Order.Basic
import Mathlib.Data.List.Induction
import Mathlib.Tactic.SplitIfs
import OpenStreamGrid.Lib.TransitionSystem

/-!
# The browser's registration

`startGrid` and `stopGrid` of the Hls.js plugin, the registration of its peer with
the tracker, the refresh of the session and the unregistration. Each request to
the tracker settles at any time after it was sent, whatever was called meanwhile.
-/

namespace OpenStreamGrid

namespace Sdk

/-- A session token, which the tracker signs and which is never empty. -/
abbrev SessionToken := {token : String // token ≠ ""}

def MAX_TIMER_DELAY_MS : ℤ := 2147483647

/-- A call of `registerPeer` that is not over: its request is under way, or the client starts. -/
inductive RegistrationStage where
  | posting
  | startingClient
deriving DecidableEq

structure RegistrationCall where
  /-- Made by the refresh timer, not by `startPeerRegistration`. -/
  refresh : Bool
  stage : RegistrationStage
deriving DecidableEq

/-- What goes to and comes from the tracker; a request has the token it was sent with. -/
inductive TrackerCall where
  | post (authorization : Option SessionToken)
  | registered (token : SessionToken)
  | delete (authorization : Option SessionToken)
deriving DecidableEq

/-- The timer of `scheduleSessionRefresh`, with the two values its callback uses. -/
structure SessionRefresh where
  expiresAt : ℤ
  remainingMs : ℤ
deriving DecidableEq

structure PeerRegistration where
  peerParticipation : Bool
  /-- The grid runs for a player. -/
  active : Bool
  registered : Bool
  peerSessionToken : Option SessionToken
  registrationRetry : Bool
  sessionRefresh : Option SessionRefresh
  registrations : List RegistrationCall
  /-- How many unregistration requests are under way. -/
  unregistrations : ℕ
  /-- Everything so far, the first call first. -/
  calls : List TrackerCall
deriving DecidableEq

namespace PeerRegistration

def new (peerParticipation : Bool) : PeerRegistration :=
  ⟨peerParticipation, false, false, none, false, none, [], 0, []⟩

/-- The start of `registerPeer`. -/
def registerPeer (s : PeerRegistration) (refresh : Bool) : PeerRegistration :=
  { s with
    registrations := s.registrations ++ [⟨refresh, .posting⟩]
    calls := s.calls ++ [.post s.peerSessionToken] }

def unregisterPeer (s : PeerRegistration) : PeerRegistration :=
  { s with
    registered := false
    sessionRefresh := none
    unregistrations := s.unregistrations + 1
    calls := s.calls ++ [.delete s.peerSessionToken] }

def scheduleSessionRefresh (s : PeerRegistration) (expiresAt now : ℤ) : PeerRegistration :=
  { s with sessionRefresh := some ⟨expiresAt, max 1000 (expiresAt - now - 60000)⟩ }

def startGrid (s : PeerRegistration) : PeerRegistration :=
  if s.active then s
  else
    let s := { s with active := true }
    if s.peerParticipation then s.registerPeer false else s

def stopGrid (s : PeerRegistration) : PeerRegistration :=
  let s := { s with active := false, registrationRetry := false, sessionRefresh := none }
  if s.registered then s.unregisterPeer else s

/-- The response to a registration, read to its end. -/
def onRegistered (s : PeerRegistration) (i : ℕ) (call : RegistrationCall) (token : SessionToken)
    (expiresAt now : ℤ) : PeerRegistration :=
  let s := { s with
    peerSessionToken := some token
    calls := s.calls ++ [TrackerCall.registered token] }
  let s := { s.scheduleSessionRefresh expiresAt now with registered := true }
  if s.active then
    { s with registrations := s.registrations.set i { call with stage := .startingClient } }
  else { s.unregisterPeer with registrations := s.registrations.eraseIdx i }

/-- The handler of a failed `registerPeer`, of either caller. -/
def onRegistrationError (s : PeerRegistration) (i : ℕ) (call : RegistrationCall) (now : ℤ) :
    PeerRegistration :=
  let s := { s with registrations := s.registrations.eraseIdx i }
  if call.refresh then
    if s.active ∧ s.registered then s.scheduleSessionRefresh (now + 65000) now else s
  else if s.active ∧ ¬s.registrationRetry then { s with registrationRetry := true }
  else s

def onRetryTimer (s : PeerRegistration) : PeerRegistration :=
  let s := { s with registrationRetry := false }
  if s.active ∧ ¬s.registered then s.registerPeer false else s

def onRefreshTimer (s : PeerRegistration) (timer : SessionRefresh) (now : ℤ) : PeerRegistration :=
  let s := { s with sessionRefresh := none }
  -- a timer cannot wait that long: it was armed for a part of the time
  if MAX_TIMER_DELAY_MS < timer.remainingMs then s.scheduleSessionRefresh timer.expiresAt now
  else if s.active ∧ s.registered then s.registerPeer true
  else s

inductive Event where
  | startGrid
  | stopGrid
  | registrationSucceeds (call : ℕ) (token : SessionToken) (expiresAt now : ℤ)
  /-- The request fails, or its response is no session. -/
  | registrationFails (call : ℕ) (now : ℤ)
  | clientStarts (call : ℕ)
  | clientFails (call : ℕ) (now : ℤ)
  /-- An unregistration request succeeds or fails. -/
  | unregistrationSettles
  | retryTimer
  | refreshTimer (now : ℤ)
deriving DecidableEq

/-- The call, if it is at this stage. -/
def callAt (s : PeerRegistration) (i : ℕ) (stage : RegistrationStage) : Option RegistrationCall :=
  s.registrations[i]?.filter fun call => call.stage = stage

def step (s : PeerRegistration) : Event → Option PeerRegistration
  | .startGrid => some s.startGrid
  | .stopGrid => some s.stopGrid
  | .registrationSucceeds i token expiresAt now =>
      (s.callAt i .posting).map fun call => s.onRegistered i call token expiresAt now
  | .registrationFails i now => (s.callAt i .posting).map fun call => s.onRegistrationError i call now
  | .clientStarts i => (s.callAt i .startingClient).map fun _ =>
      { s with registrations := s.registrations.eraseIdx i }
  | .clientFails i now =>
      (s.callAt i .startingClient).map fun call => s.onRegistrationError i call now
  | .unregistrationSettles =>
      if s.unregistrations = 0 then none
      else some { s with unregistrations := s.unregistrations - 1, peerSessionToken := none }
  | .retryTimer => if s.registrationRetry then some s.onRetryTimer else none
  | .refreshTimer now => s.sessionRefresh.map fun timer => s.onRefreshTimer timer now

def system : TransitionSystem PeerRegistration Event where
  init s := ∃ peerParticipation, s = new peerParticipation
  step := step

/-! ## The lifecycle -/

/-- The token of the last successful registration. -/
def latestToken (calls : List TrackerCall) : Option SessionToken :=
  calls.foldl (fun latest call =>
    match call with
    | .registered token => some token
    | _ => latest) none

/-- After every registration an unregistration was sent, with a token the tracker has issued. -/
def Unregistered (calls : List TrackerCall) : Prop :=
  ∀ earlier token later, calls = earlier ++ .registered token :: later →
    ∃ issued, .delete (some issued) ∈ later ∧ .registered issued ∈ calls

/-- No request to the tracker is under way. -/
def Quiet (s : PeerRegistration) : Prop :=
  s.unregistrations = 0 ∧ ∀ call ∈ s.registrations, call.stage ≠ .posting

/-- What is expected of every state. -/
structure Lifecycle (s : PeerRegistration) : Prop where
  token : s.active = true → s.registered = true → s.peerSessionToken = latestToken s.calls
  unregistered : s.active = false → s.Quiet → Unregistered s.calls
  disarmed : s.active = false → s.Quiet → s.registrationRetry = false ∧ s.sessionRefresh = none

/-- No unregistration settles while the peer is registered again. -/
def Orderly (s : PeerRegistration) : Event → Prop
  | .unregistrationSettles => s.registered = false
  | _ => True

variable {s s' : PeerRegistration} {calls : List TrackerCall} {token : SessionToken}

/-! ### The calls -/

theorem latestToken_append (call : TrackerCall) : latestToken (calls ++ [call]) =
    match call with
    | .registered token => some token
    | _ => latestToken calls := by
  unfold latestToken
  rw [List.foldl_append]
  rfl

/-- The latest token was issued. -/
theorem registered_of_latestToken (h : latestToken calls = some token) :
    .registered token ∈ calls := by
  induction calls using List.reverseRecOn with
  | nil => cases h
  | append_singleton calls call ih =>
      rw [latestToken_append] at h
      cases call with
      | registered issued =>
          obtain rfl := Option.some.inj h
          exact List.mem_append_right _ (List.mem_singleton_self _)
      | post _ => exact List.mem_append_left _ (ih h)
      | delete _ => exact List.mem_append_left _ (ih h)

/-- A registration before the last call, which is none. -/
theorem split_append {call : TrackerCall} (hcall : ∀ token, call ≠ .registered token)
    {earlier later : List TrackerCall} (h : calls ++ [call] = earlier ++ .registered token :: later) :
    ∃ later', later = later' ++ [call] ∧ calls = earlier ++ .registered token :: later' := by
  rcases List.eq_nil_or_concat later with rfl | ⟨later', last, rfl⟩
  · have hlast := (List.append_inj' h rfl).2
    exact absurd (List.singleton_inj.mp hlast) (hcall token)
  · rw [List.concat_eq_append, ← List.cons_append, ← List.append_assoc] at h
    obtain ⟨hcalls, hlast⟩ := List.append_inj' h rfl
    exact ⟨later', by rw [List.concat_eq_append, List.singleton_inj.mp hlast], hcalls⟩

theorem Unregistered.post (h : Unregistered calls) (authorization : Option SessionToken) :
    Unregistered (calls ++ [.post authorization]) := by
  intro earlier token later hsplit
  rcases split_append (by intro _ heq; cases heq) hsplit with ⟨later', rfl, hcalls⟩
  rcases h earlier token later' hcalls with ⟨issued, hdelete, hissued⟩
  exact ⟨issued, List.mem_append_left _ hdelete, List.mem_append_left _ hissued⟩

/-- An unregistration with the latest token follows every registration. -/
theorem unregistered_delete (h : latestToken calls = some token) :
    Unregistered (calls ++ [.delete (some token)]) := by
  intro earlier other later hsplit
  rcases split_append (by intro _ heq; cases heq) hsplit with ⟨later', rfl, -⟩
  exact ⟨token, List.mem_append_right _ (List.mem_singleton_self _),
    List.mem_append_left _ (registered_of_latestToken h)⟩

theorem unregistered_nil : Unregistered [] := by
  intro earlier token later hsplit
  cases earlier <;> cases hsplit

/-! ### The invariant -/

/-- What every step of an orderly run keeps. The token is the latest one as long as the peer is
registered, so that the unregistration that ends this is sent with it. -/
structure Registered (s : PeerRegistration) : Prop where
  active : s.registered = true → s.active = true
  token : s.registered = true → ∃ token, s.peerSessionToken = some token ∧
    latestToken s.calls = some token
  unregistered : s.registered = false → Unregistered s.calls
  disarmed : s.active = false → s.registrationRetry = false ∧ s.sessionRefresh = none

namespace Registered

theorem new (peerParticipation : Bool) : (new peerParticipation).Registered where
  active h := h
  token h := by cases h
  unregistered _ := unregistered_nil
  disarmed _ := ⟨rfl, rfl⟩

theorem lifecycle (h : s.Registered) : s.Lifecycle where
  token _ hregistered := by
    rcases h.token hregistered with ⟨token, hheld, hlatest⟩
    rw [hheld, hlatest]
  unregistered hinactive _ := by
    apply h.unregistered
    rw [Bool.eq_false_iff]
    intro hregistered
    cases hinactive.symm.trans (h.active hregistered)
  disarmed hinactive _ := h.disarmed hinactive

/-- Another request changes neither the token nor what was registered. -/
theorem registerPeer (h : s.Registered) (refresh : Bool) : (s.registerPeer refresh).Registered where
  active := h.active
  token hregistered := by
    rcases h.token hregistered with ⟨token, hheld, hlatest⟩
    exact ⟨token, hheld, (latestToken_append _).trans hlatest⟩
  unregistered hunregistered := (h.unregistered hunregistered).post _
  disarmed := h.disarmed

/-- Timers may change while the grid runs. -/
theorem timers (h : s.Registered) (hactive' : s'.active = true)
    (hregistered : s'.registered = s.registered)
    (htoken : s'.peerSessionToken = s.peerSessionToken) (hcalls : s'.calls = s.calls) :
    s'.Registered where
  active _ := hactive'
  token := by
    rw [hregistered, htoken, hcalls]
    exact h.token
  unregistered := by
    rw [hregistered, hcalls]
    exact h.unregistered
  disarmed hinactive := by cases hinactive.symm.trans hactive'

/-- The unregistration of a peer that is registered. -/
theorem unregisterPeer (hheld : s.peerSessionToken = some token)
    (hlatest : latestToken s.calls = some token)
    (hretry : s.active = false → s.registrationRetry = false) : s.unregisterPeer.Registered where
  active h := by cases h
  token h := by cases h
  unregistered _ := by
    show Unregistered (s.calls ++ [.delete s.peerSessionToken])
    rw [hheld]
    exact unregistered_delete hlatest
  disarmed hinactive := ⟨hretry hinactive, rfl⟩

theorem startGrid (h : s.Registered) : s.startGrid.Registered := by
  unfold PeerRegistration.startGrid
  dsimp only
  have hstarted : s.active = false → { s with active := true }.Registered := fun hinactive =>
    { active := fun _ => rfl
      token := h.token
      unregistered := h.unregistered
      disarmed := fun hfalse => by cases hfalse }
  split_ifs with hactive
  · exact h
  · exact (hstarted (Bool.eq_false_iff.mpr hactive)).registerPeer false
  · exact hstarted (Bool.eq_false_iff.mpr hactive)

theorem stopGrid (h : s.Registered) : s.stopGrid.Registered := by
  unfold PeerRegistration.stopGrid
  dsimp only
  split_ifs with hregistered
  · rcases h.token hregistered with ⟨token, hheld, hlatest⟩
    exact unregisterPeer hheld hlatest fun _ => rfl
  · have hunregistered : s.registered = false := Bool.eq_false_iff.mpr hregistered
    exact ⟨fun hfalse => absurd hfalse hregistered, fun hfalse => absurd hfalse hregistered,
      h.unregistered, fun _ => ⟨rfl, rfl⟩⟩

/-- A registration succeeds. Of a grid that was stopped meanwhile the peer is unregistered at once,
with the new token. -/
theorem onRegistered (h : s.Registered) (i : ℕ) (call : RegistrationCall) (token : SessionToken)
    (expiresAt now : ℤ) : (s.onRegistered i call token expiresAt now).Registered := by
  have hlatest : latestToken (s.calls ++ [.registered token]) = some token := latestToken_append _
  unfold PeerRegistration.onRegistered
  dsimp only [scheduleSessionRefresh]
  split_ifs with hactive
  · refine ⟨fun _ => hactive, fun _ => ⟨token, rfl, hlatest⟩, fun hfalse => ?_, fun hinactive => ?_⟩
    · cases hfalse
    · cases hinactive.symm.trans hactive
  · have hinactive : s.active = false := Bool.eq_false_iff.mpr hactive
    refine ⟨fun hfalse => Bool.noConfusion hfalse, fun hfalse => Bool.noConfusion hfalse,
      fun _ => ?_, fun _ => ⟨(h.disarmed hinactive).1, rfl⟩⟩
    exact unregistered_delete hlatest

theorem onRegistrationError (h : s.Registered) (i : ℕ) (call : RegistrationCall) (now : ℤ) :
    (s.onRegistrationError i call now).Registered := by
  unfold PeerRegistration.onRegistrationError
  dsimp only [scheduleSessionRefresh]
  split_ifs with hrefresh hrunning hretry
  · exact h.timers hrunning.1 rfl rfl rfl
  · exact ⟨h.active, h.token, h.unregistered, h.disarmed⟩
  · exact h.timers hretry.1 rfl rfl rfl
  · exact ⟨h.active, h.token, h.unregistered, h.disarmed⟩

theorem onRetryTimer (h : s.Registered) : s.onRetryTimer.Registered := by
  have hdisarmed : { s with registrationRetry := false }.Registered :=
    ⟨h.active, h.token, h.unregistered, fun hinactive => ⟨rfl, (h.disarmed hinactive).2⟩⟩
  unfold PeerRegistration.onRetryTimer
  dsimp only
  split_ifs
  · exact hdisarmed.registerPeer false
  · exact hdisarmed

theorem onRefreshTimer (h : s.Registered) {timer : SessionRefresh}
    (harmed : s.sessionRefresh = some timer) (now : ℤ) :
    (s.onRefreshTimer timer now).Registered := by
  have hactive : s.active = true := by
    rw [← Bool.not_eq_false]
    intro hinactive
    cases harmed.symm.trans (h.disarmed hinactive).2
  have hdisarmed : { s with sessionRefresh := none }.Registered :=
    h.timers hactive rfl rfl rfl
  unfold PeerRegistration.onRefreshTimer
  dsimp only
  split_ifs
  · exact h.timers hactive rfl rfl rfl
  · exact hdisarmed.registerPeer true
  · exact hdisarmed

theorem step (h : s.Registered) {event : Event} (hok : s.Orderly event)
    (hstep : s.step event = some s') : s'.Registered := by
  cases event with
  | startGrid =>
      obtain rfl := Option.some.inj hstep
      exact h.startGrid
  | stopGrid =>
      obtain rfl := Option.some.inj hstep
      exact h.stopGrid
  | registrationSucceeds i token expiresAt now =>
      rcases Option.map_eq_some_iff.mp hstep with ⟨call, -, rfl⟩
      exact h.onRegistered i call token expiresAt now
  | registrationFails i now =>
      rcases Option.map_eq_some_iff.mp hstep with ⟨call, -, rfl⟩
      exact h.onRegistrationError i call now
  | clientStarts i =>
      rcases Option.map_eq_some_iff.mp hstep with ⟨call, -, rfl⟩
      exact ⟨h.active, h.token, h.unregistered, h.disarmed⟩
  | clientFails i now =>
      rcases Option.map_eq_some_iff.mp hstep with ⟨call, -, rfl⟩
      exact h.onRegistrationError i call now
  | unregistrationSettles =>
      simp only [PeerRegistration.step] at hstep
      split_ifs at hstep
      obtain rfl := Option.some.inj hstep
      change s.registered = false at hok
      refine ⟨h.active, fun hregistered => ?_, h.unregistered, h.disarmed⟩
      cases hok.symm.trans hregistered
  | retryTimer =>
      simp only [PeerRegistration.step] at hstep
      split_ifs at hstep
      obtain rfl := Option.some.inj hstep
      exact h.onRetryTimer
  | refreshTimer now =>
      rcases Option.map_eq_some_iff.mp hstep with ⟨timer, harmed, rfl⟩
      exact h.onRefreshTimer harmed now

/-- An unregistration that settles late takes the token of the registered peer away. -/
theorem breaks (h : s.Registered) {event : Event} (hbad : ¬s.Orderly event)
    (hstep : s.step event = some s') : ¬s'.Lifecycle := by
  cases event with
  | unregistrationSettles =>
      have hregistered : s.registered = true := by
        rw [← Bool.not_eq_false]
        exact hbad
      simp only [PeerRegistration.step] at hstep
      split_ifs at hstep
      obtain rfl := Option.some.inj hstep
      intro hlifecycle
      rcases h.token hregistered with ⟨token, -, hlatest⟩
      have hnone : none = latestToken s.calls :=
        hlifecycle.token (h.active hregistered) hregistered
      cases hnone.trans hlatest
  | _ => exact absurd trivial hbad

end Registered

/-- **The lifecycle holds all along a run if and only if** no unregistration settles while the peer
is registered. -/
theorem lifecycle_iff_orderly {peerParticipation : Bool} {events : List Event}
    (hrun : system.run (new peerParticipation) events = some s) :
    (∀ earlier t, earlier <+: events → system.run (new peerParticipation) earlier = some t →
        t.Lifecycle) ↔
      system.RunOk Orderly (new peerParticipation) events := by
  apply @TransitionSystem.forall_prefix_iff_runOk _ _ system Orderly Registered Lifecycle
  · intro s h
    exact h.lifecycle
  · intro s event s' h hok hstep
    exact h.step hok hstep
  · intro s event s' h hbad hstep
    exact h.breaks hbad hstep
  · exact .new peerParticipation
  · exact hrun

/-! ### A quick stop and start -/

def firstToken : SessionToken := ⟨"session-1", by decide⟩

def secondToken : SessionToken := ⟨"session-2", by decide⟩

/-- The grid is stopped and started again; the second registration succeeds while the unregistration
of the first one is under way. -/
def quickRestart : List Event :=
  [.startGrid, .registrationSucceeds 0 firstToken 900000 0, .clientStarts 0, .stopGrid, .startGrid,
    .registrationSucceeds 0 secondToken 900000 1000]

/-- A refresh under way when the grid is stopped; the peer is unregistered twice. -/
theorem lifecycle_iff_orderly_refresh :
    (∀ earlier t, earlier <+: [Event.startGrid, .registrationSucceeds 0 firstToken 900000 0,
        .clientStarts 0, .refreshTimer 840000, .stopGrid, .unregistrationSettles,
        .registrationSucceeds 0 secondToken 1800000 841000, .unregistrationSettles] →
      system.run (new true) earlier = some t → t.Lifecycle) ↔
    system.RunOk Orderly (new true) [.startGrid, .registrationSucceeds 0 firstToken 900000 0,
      .clientStarts 0, .refreshTimer 840000, .stopGrid, .unregistrationSettles,
      .registrationSucceeds 0 secondToken 1800000 841000, .unregistrationSettles] := by
  have hrun : system.run (new true) [.startGrid, .registrationSucceeds 0 firstToken 900000 0,
      .clientStarts 0, .refreshTimer 840000, .stopGrid, .unregistrationSettles,
      .registrationSucceeds 0 secondToken 1800000 841000, .unregistrationSettles] =
        some ⟨true, false, false, none, false, none, [], 0,
          [.post none, .registered firstToken, .post (some firstToken), .delete (some firstToken),
            .registered secondToken, .delete (some secondToken)]⟩ := by
    decide +kernel
  exact lifecycle_iff_orderly hrun

/-- The first unregistration settles last: the peer stays registered without a token, and its own
unregistration is sent without one. -/
theorem quick_restart_loses_token :
    ¬ ∀ s, system.Reachable (fun _ _ => True) s → s.Lifecycle := by
  intro h
  have hrun : system.run (new true) (quickRestart ++ [.clientStarts 0, .unregistrationSettles,
      .stopGrid, .unregistrationSettles]) =
        some ⟨true, false, false, none, false, none, [], 0,
          [.post none, .registered firstToken, .delete (some firstToken), .post (some firstToken),
            .registered secondToken, .delete none]⟩ := by
    decide +kernel
  have hlifecycle := h _ (TransitionSystem.reachable_of_run ⟨true, rfl⟩ hrun)
  rcases hlifecycle.unregistered rfl ⟨rfl, fun _ hmem => absurd hmem List.not_mem_nil⟩
    [.post none, .registered firstToken, .delete (some firstToken), .post (some firstToken)]
    secondToken [.delete none] rfl with ⟨issued, hdelete, -⟩
  cases List.mem_singleton.mp hdelete

end PeerRegistration

end Sdk

end OpenStreamGrid
