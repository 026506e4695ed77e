import Mathlib.Logic.Function.Basic
import OpenStreamGrid.Lib.OrderedMap
import OpenStreamGrid.Lib.TransitionSystem

/-!
# Coalescing requests

Calls for the same key share one request while it is in flight. A call that is
aborted leaves its request alone; the last one to leave cancels it. The request
stays in flight until it settles, so that a later call can still join it. The
work behind a request may have a time limit of its own, which ends it with the
same kind of error as an abort.

In runs in which no call joins a cancelled request, and no request runs into its
time limit while calls wait for it, a call is cancelled only by its own signal or
by a stop of the whole service.
-/

namespace OpenStreamGrid

/-- How a call or a request ends: with a result, good or bad, or by cancellation. -/
inductive Settlement (ρ δ : Type) where
  | done (result : δ)
  | cancelled (reason : ρ)
deriving DecidableEq

structure SharedRequest (κ ρ δ : Type) where
  key : Option κ
  /-- The reason its controller was aborted with. -/
  cancelled : Option ρ
  settlement : Option (Settlement ρ δ)
  /-- The calls that wait for it. -/
  consumers : List ℕ

structure CoalescedCall (ρ δ : Type) where
  /-- It came with a signal. -/
  abortable : Bool
  /-- The reason its signal was aborted with. -/
  aborted : Option ρ
  /-- The service was stopped when it came, or has been stopped since. -/
  sawStop : Bool
  waitingFor : Option ℕ
  outcome : Option (Settlement ρ δ)

structure Coalescing (κ ρ δ : Type) where
  /-- Every request there was, by number. -/
  requests : ℕ → SharedRequest κ ρ δ
  started : ℕ
  inFlight : OrderedMap κ ℕ
  /-- Every call there was, by number. -/
  calls : ℕ → CoalescedCall ρ δ
  made : ℕ
  /-- The reason of the stop, while the service is stopped. -/
  stopped : Option ρ

/-- What sets a service apart. -/
structure CoalescingService (κ ρ δ : Type) where
  /-- The reason an abandoned request is cancelled with, given the last call's. -/
  leaveReason : ρ → ρ
  /-- What a load that is cut off may fail with, given the reason it is cut off with. -/
  cutOff : ρ → ρ
  /-- The reason a load is cut off with at its own time limit, if it has one. -/
  timeLimit : Option ρ
  stop : Coalescing κ ρ δ → Coalescing κ ρ δ
  /-- It can be started again after a stop. -/
  restarts : Bool

namespace Coalescing

variable {κ ρ δ : Type} [DecidableEq κ]

def new : Coalescing κ ρ δ where
  requests _ := ⟨none, none, none, []⟩
  started := 0
  inFlight := ∅
  calls _ := ⟨false, none, false, none, none⟩
  made := 0
  stopped := none

def updateRequest (s : Coalescing κ ρ δ) (r : ℕ)
    (f : SharedRequest κ ρ δ → SharedRequest κ ρ δ) : Coalescing κ ρ δ :=
  { s with requests := Function.update s.requests r (f (s.requests r)) }

def updateCall (s : Coalescing κ ρ δ) (id : ℕ) (f : CoalescedCall ρ δ → CoalescedCall ρ δ) :
    Coalescing κ ρ δ :=
  { s with calls := Function.update s.calls id (f (s.calls id)) }

def addCall (s : Coalescing κ ρ δ) (call : CoalescedCall ρ δ) : Coalescing κ ρ δ :=
  { s with calls := Function.update s.calls s.made call, made := s.made + 1 }

/-- Abort the controller of a request; only the first reason counts. -/
def cancel (s : Coalescing κ ρ δ) (reason : ρ) (r : ℕ) : Coalescing κ ρ δ :=
  s.updateRequest r fun request =>
    { request with cancelled := request.cancelled.orElse fun _ => some reason }

def start (s : Coalescing κ ρ δ) (key : κ) : Coalescing κ ρ δ :=
  { s with
    requests := Function.update s.requests s.started ⟨some key, none, none, []⟩
    started := s.started + 1
    inFlight := s.inFlight.set key s.started }

/-- A new call waits for a request. -/
def join (s : Coalescing κ ρ δ) (abortable : Bool) (r : ℕ) : Coalescing κ ρ δ :=
  (s.updateRequest r fun request =>
    { request with consumers := request.consumers ++ [s.made] }).addCall
      ⟨abortable, none, s.stopped.isSome, some r, none⟩

/-- A call whose signal may be aborted already, or whose result may be cached. -/
def call (s : Coalescing κ ρ δ) (key : κ) (abortable : Bool) (aborted : Option ρ)
    (cached : Option δ) : Coalescing κ ρ δ :=
  match aborted, cached with
  | some reason, _ =>
      s.addCall ⟨abortable, some reason, s.stopped.isSome, none, some (.cancelled reason)⟩
  | none, some result => s.addCall ⟨abortable, none, s.stopped.isSome, none, some (.done result)⟩
  | none, none =>
      match s.inFlight.get? key with
      -- Whether its controller has been aborted is not asked.
      | some r => s.join abortable r
      | none => (s.start key).join abortable s.started

/-- A waiting call ends. -/
def finish (s : Coalescing κ ρ δ) (id r : ℕ) (outcome : Settlement ρ δ) : Coalescing κ ρ δ :=
  (s.updateCall id fun call => { call with outcome := some outcome }).updateRequest r fun request =>
    { request with consumers := request.consumers.filter fun other => other ≠ id }

/-- A call leaves its request, which is cancelled if nobody waits for it any more. -/
def leave (s : Coalescing κ ρ δ) (leaveReason : ρ → ρ) (id r : ℕ) (reason : ρ) :
    Coalescing κ ρ δ :=
  let left := s.finish id r (.cancelled reason)
  if (left.requests r).consumers = [] ∧ (left.requests r).settlement.isNone then
    left.cancel (leaveReason reason) r
  else left

/-- The signal of a call is aborted. -/
def abort (s : Coalescing κ ρ δ) (leaveReason : ρ → ρ) (id : ℕ) (reason : ρ) :
    Option (Coalescing κ ρ δ) :=
  if id < s.made ∧ (s.calls id).abortable ∧ (s.calls id).aborted.isNone then
    let signalled := s.updateCall id fun call => { call with aborted := some reason }
    match (s.calls id).waitingFor, (s.calls id).outcome with
    | some r, none => some (signalled.leave leaveReason id r reason)
    | _, _ => some signalled
  else none

/-- An error that tells of a cause, as it is or as a load that is cut off tells it. -/
def TellsOf (cutOff : ρ → ρ) (cause : Option ρ) (reason : ρ) : Prop :=
  ∃ first ∈ cause, reason = first ∨ reason = cutOff first

instance [DecidableEq ρ] (cutOff : ρ → ρ) (cause : Option ρ) (reason : ρ) :
    Decidable (TellsOf cutOff cause reason) :=
  inferInstanceAs (Decidable (∃ first ∈ cause, reason = first ∨ reason = cutOff first))

/-- What a load can come to by itself: it is cancelled by its controller or by the stop alone. -/
def Admissible (s : Coalescing κ ρ δ) (cutOff : ρ → ρ) (r : ℕ) : Settlement ρ δ → Prop
  | .done _ => True
  | .cancelled reason =>
      TellsOf cutOff (s.requests r).cancelled reason ∨ TellsOf cutOff s.stopped reason

instance [DecidableEq ρ] (s : Coalescing κ ρ δ) (cutOff : ρ → ρ) (r : ℕ) :
    ∀ settlement, Decidable (s.Admissible cutOff r settlement)
  | .done _ => isTrue trivial
  | .cancelled _ => inferInstanceAs (Decidable (_ ∨ _))

/-- A load comes to its end, and its request is no longer in flight. -/
def close (s : Coalescing κ ρ δ) (r : ℕ) (settlement : Settlement ρ δ) :
    Option (Coalescing κ ρ δ) :=
  if r < s.started ∧ (s.requests r).settlement.isNone then
    let settled := s.updateRequest r fun request => { request with settlement := some settlement }
    match (s.requests r).key with
    | none => some settled
    | some key =>
        if s.inFlight.get? key = some r then
          some { settled with inFlight := s.inFlight.delete key }
        else some settled
  else none

def settle [DecidableEq ρ] (s : Coalescing κ ρ δ) (cutOff : ρ → ρ) (r : ℕ)
    (settlement : Settlement ρ δ) : Option (Coalescing κ ρ δ) :=
  if s.Admissible cutOff r settlement then s.close r settlement else none

/-- A load reaches its own time limit, and fails as if it had been aborted. -/
def timeOut (s : Coalescing κ ρ δ) (service : CoalescingService κ ρ δ) (r : ℕ) :
    Option (Coalescing κ ρ δ) :=
  service.timeLimit.bind fun reason => s.close r (.cancelled (service.cutOff reason))

/-- A waiting call learns how its request has settled. -/
def deliver (s : Coalescing κ ρ δ) (id : ℕ) : Option (Coalescing κ ρ δ) :=
  match (s.calls id).waitingFor, (s.calls id).outcome with
  | some r, none => (s.requests r).settlement.map (s.finish id r)
  | _, _ => none

/-- All that wait for a request are turned away. -/
def rejectConsumers (s : Coalescing κ ρ δ) (reason : ρ) (r : ℕ) : Coalescing κ ρ δ :=
  ({ s with
      calls := fun id =>
        if id ∈ (s.requests r).consumers then
          { s.calls id with outcome := some (.cancelled reason) }
        else s.calls id }).updateRequest r fun request => { request with consumers := [] }

/-- The service is stopped, and every call there is sees it. -/
def markStopped (s : Coalescing κ ρ δ) (reason : ρ) : Coalescing κ ρ δ :=
  { s with
    calls := fun id => { s.calls id with sawStop := true }
    stopped := some reason }

inductive Event (κ ρ δ : Type) where
  | call (key : κ) (abortable : Bool) (aborted : Option ρ) (cached : Option δ)
  | abort (id : ℕ) (reason : ρ)
  | settle (r : ℕ) (settlement : Settlement ρ δ)
  | timeOut (r : ℕ)
  | deliver (id : ℕ)
  | stop
  | restart

def step [DecidableEq ρ] (service : CoalescingService κ ρ δ) (s : Coalescing κ ρ δ) :
    Event κ ρ δ → Option (Coalescing κ ρ δ)
  | .call key abortable aborted cached => some (s.call key abortable aborted cached)
  | .abort id reason => s.abort service.leaveReason id reason
  | .settle r settlement => s.settle service.cutOff r settlement
  | .timeOut r => s.timeOut service r
  | .deliver id => s.deliver id
  | .stop => some (service.stop s)
  | .restart => if service.restarts then some { s with stopped := none } else none

def system [DecidableEq ρ] (service : CoalescingService κ ρ δ) :
    TransitionSystem (Coalescing κ ρ δ) (Event κ ρ δ) where
  init s := s = .new
  step := step service

/-- No call joins a request that was cancelled before it came, unless the service is stopped. -/
def JoinsLive (s : Coalescing κ ρ δ) : Event κ ρ δ → Prop
  | .call key _ none none => ∀ r, s.inFlight.get? key = some r →
      (s.requests r).cancelled.isNone ∨ s.stopped.isSome
  | _ => True

instance (s : Coalescing κ ρ δ) : ∀ e, Decidable (s.JoinsLive e)
  | .call key _ none none =>
      inferInstanceAs (Decidable (∀ r ∈ s.inFlight.get? key,
        (s.requests r).cancelled.isNone ∨ s.stopped.isSome))
  | .call _ _ (some _) _ | .call _ _ none (some _) => isTrue trivial
  | .abort _ _ | .settle _ _ | .timeOut _ | .deliver _ | .stop | .restart => isTrue trivial

/-- No load reaches its time limit while a call waits for it, unless the service is stopped. -/
def InTime (s : Coalescing κ ρ δ) : Event κ ρ δ → Prop
  | .timeOut r => (s.requests r).consumers = [] ∨ s.stopped.isSome
  | _ => True

instance (s : Coalescing κ ρ δ) : ∀ e, Decidable (s.InTime e)
  | .timeOut r => inferInstanceAs (Decidable ((s.requests r).consumers = [] ∨ s.stopped.isSome))
  | .call _ _ _ _ | .abort _ _ | .settle _ _ | .deliver _ | .stop | .restart => isTrue trivial

/-- A step that brings no call a cancellation that is not its own. -/
def Considerate (s : Coalescing κ ρ δ) (e : Event κ ρ δ) : Prop :=
  s.JoinsLive e ∧ s.InTime e

instance (s : Coalescing κ ρ δ) (e : Event κ ρ δ) : Decidable (s.Considerate e) :=
  inferInstanceAs (Decidable (_ ∧ _))

/-- A call is cancelled by its own signal or by a stop alone. -/
def SelfInflicted (s : Coalescing κ ρ δ) : Prop :=
  ∀ id reason, (s.calls id).outcome = some (.cancelled reason) →
    (s.calls id).aborted.isSome ∨ (s.calls id).sawStop = true

/-! ## Who is cancelled -/

/-- A request whose waiting calls will be cancelled. -/
def Doomed (s : Coalescing κ ρ δ) (r : ℕ) : Prop :=
  (s.requests r).cancelled.isSome ∨ ∃ reason, (s.requests r).settlement = some (.cancelled reason)

def Waits (s : Coalescing κ ρ δ) (id r : ℕ) : Prop :=
  (s.calls id).waitingFor = some r ∧ (s.calls id).outcome = none

/-- Nothing but who waits for them differs in the requests. -/
def SameRequests (s s' : Coalescing κ ρ δ) : Prop :=
  ∀ r, ∃ consumers, s'.requests r = { s.requests r with consumers := consumers }

structure Fair (s : Coalescing κ ρ δ) : Prop where
  consumers : ∀ id r, id ∈ (s.requests r).consumers ↔ s.Waits id r
  known : ∀ id r, s.Waits id r → id < s.made ∧ r < s.started
  live : ∀ key r, s.inFlight.get? key = some r →
    r < s.started ∧ (s.requests r).key = some key ∧ (s.requests r).settlement = none
  doomed : ∀ id r, s.Waits id r → s.Doomed r → (s.calls id).sawStop = true
  stopped : s.stopped.isSome → ∀ id < s.made, (s.calls id).sawStop = true
  selfInflicted : s.SelfInflicted

namespace SameRequests

variable {s s' : Coalescing κ ρ δ} {r : ℕ}

omit [DecidableEq κ] in
theorem of_update {consumers : List ℕ} (h : s'.requests =
    Function.update s.requests r { s.requests r with consumers := consumers }) :
    s.SameRequests s' := by
  intro r'
  rw [h, Function.update_apply]
  split_ifs with hr
  · rw [hr]
    exact ⟨consumers, rfl⟩
  · exact ⟨_, rfl⟩

omit [DecidableEq κ] in
theorem doomed_iff (h : s.SameRequests s') : s'.Doomed r ↔ s.Doomed r := by
  obtain ⟨consumers, hr⟩ := h r
  unfold Doomed
  rw [hr]

theorem live (h : s.SameRequests s') (hfair : s.Fair) {key : κ}
    (hlive : s.inFlight.get? key = some r) : r < s.started ∧
      (s'.requests r).key = some key ∧ (s'.requests r).settlement = none := by
  obtain ⟨consumers, hr⟩ := h r
  rw [hr]
  exact hfair.live key r hlive

end SameRequests

namespace Fair

variable {s : Coalescing κ ρ δ} {id r : ℕ} {reason : ρ}

theorem new : (new : Coalescing κ ρ δ).Fair where
  consumers := by
    intro id r
    refine iff_of_false List.not_mem_nil ?_
    rintro ⟨hwaiting, -⟩
    cases hwaiting
  known := by
    rintro id r ⟨hwaiting, -⟩
    cases hwaiting
  live := by
    intro key r hlive
    cases hlive
  doomed := by
    rintro id r ⟨hwaiting, -⟩
    cases hwaiting
  stopped := by
    intro hstopped
    cases hstopped
  selfInflicted := by
    intro id reason hout
    cases hout

/-- A call that ends at once waits for nothing. -/
theorem addCall_ended (h : s.Fair) {call : CoalescedCall ρ δ} (hwaiting : call.waitingFor = none)
    (hstop : call.sawStop = s.stopped.isSome)
    (hself : ∀ reason, call.outcome = some (.cancelled reason) → call.aborted.isSome) :
    (s.addCall call).Fair := by
  have hcalls : ∀ id, (s.addCall call).calls id = if id = s.made then call else s.calls id :=
    fun id => Function.update_apply _ _ _ _
  have hwaits : ∀ id r, (s.addCall call).Waits id r ↔ s.Waits id r := by
    intro id r
    unfold Waits
    rw [hcalls]
    split_ifs with hid
    · refine iff_of_false ?_ fun hw => absurd (h.known id r hw).1 (by omega)
      rintro ⟨hsome, -⟩
      rw [hwaiting] at hsome
      cases hsome
    · rfl
  refine ⟨fun id r => ?_, fun id r hw => ?_, h.live, fun id r hw hd => ?_, fun hs id hid => ?_,
    fun id reason hout => ?_⟩
  · rw [hwaits]
    exact h.consumers id r
  · have hknown := h.known id r ((hwaits id r).mp hw)
    exact ⟨Nat.lt_succ_of_lt hknown.1, hknown.2⟩
  · have hold := (hwaits id r).mp hw
    rw [hcalls, if_neg (h.known id r hold).1.ne]
    exact h.doomed id r hold hd
  · rw [hcalls]
    split_ifs with hmade
    · rw [hstop]
      exact hs
    · exact h.stopped hs id (lt_of_le_of_ne (Nat.le_of_lt_succ hid) hmade)
  · rw [hcalls] at hout ⊢
    split_ifs at hout ⊢ with hmade
    · exact Or.inl (hself reason hout)
    · exact h.selfInflicted id reason hout

/-- A call joins a request that is not doomed, or sees that the service is stopped. -/
theorem join (h : s.Fair) {abortable : Bool} (hr : r < s.started)
    (hdoomed : s.Doomed r → s.stopped.isSome) : (s.join abortable r).Fair := by
  have hcalls : ∀ id, (s.join abortable r).calls id
      = if id = s.made then ⟨abortable, none, s.stopped.isSome, some r, none⟩ else s.calls id :=
    fun id => Function.update_apply _ _ _ _
  have hrequests : ∀ r', (s.join abortable r).requests r' = if r' = r then
      { s.requests r with consumers := (s.requests r).consumers ++ [s.made] } else s.requests r' :=
    fun r' => Function.update_apply _ _ _ _
  have hwaits : ∀ id r', (s.join abortable r).Waits id r' ↔
      (id = s.made ∧ r' = r) ∨ s.Waits id r' := by
    intro id r'
    have hnew : ∀ r', ¬ s.Waits s.made r' := fun r' hw => lt_irrefl _ (h.known s.made r' hw).1
    unfold Waits at hnew ⊢
    rw [hcalls]
    split_ifs with hid
    · rw [hid]
      constructor
      · rintro ⟨hwaiting, -⟩
        exact Or.inl ⟨rfl, (Option.some.inj hwaiting).symm⟩
      · rintro (⟨-, rfl⟩ | hw)
        · exact ⟨rfl, rfl⟩
        · exact absurd hw (hnew r')
    · simp [hid]
  have hsame : s.SameRequests (s.join abortable r) := .of_update rfl
  refine ⟨fun id r' => ?_, fun id r' hw => ?_, fun key r' => hsame.live h, fun id r' hw hd => ?_,
    fun hs id hid => ?_, fun id reason hout => ?_⟩
  · rw [hwaits, hrequests, ← h.consumers]
    split_ifs with hr'
    · rw [hr', List.mem_append, List.mem_singleton, or_comm]
      simp
    · simp [hr']
  · rcases (hwaits id r').mp hw with ⟨rfl, rfl⟩ | hold
    · exact ⟨Nat.lt_succ_self _, hr⟩
    · have hknown := h.known id r' hold
      exact ⟨Nat.lt_succ_of_lt hknown.1, hknown.2⟩
  · have hold := hsame.doomed_iff.mp hd
    rw [hcalls]
    rcases (hwaits id r').mp hw with ⟨rfl, rfl⟩ | hwold
    · rw [if_pos rfl]
      exact hdoomed hold
    · rw [if_neg (h.known id r' hwold).1.ne]
      exact h.doomed id r' hwold hold
  · rw [hcalls]
    split_ifs with hmade
    · exact hs
    · exact h.stopped hs id (lt_of_le_of_ne (Nat.le_of_lt_succ hid) hmade)
  · rw [hcalls] at hout ⊢
    split_ifs at hout ⊢ with hmade
    exact h.selfInflicted id reason hout

/-- A request is started that nobody waits for yet. -/
theorem start (h : s.Fair) (key : κ) : (s.start key).Fair := by
  have hrequests : ∀ r, r < s.started → (s.start key).requests r = s.requests r :=
    fun r hr => Function.update_of_ne hr.ne _ _
  have hfresh : (s.start key).requests s.started = ⟨some key, none, none, []⟩ :=
    Function.update_self _ _ _
  refine ⟨fun id r => ?_, fun id r hw => ?_, fun key' r hlive => ?_, fun id r hw hd => ?_,
    h.stopped, h.selfInflicted⟩
  · show id ∈ ((s.start key).requests r).consumers ↔ s.Waits id r
    by_cases hr : r = s.started
    · rw [hr, hfresh]
      exact iff_of_false List.not_mem_nil fun hw => lt_irrefl _ (h.known id _ hw).2
    · have hother : (s.start key).requests r = s.requests r := Function.update_of_ne hr _ _
      rw [hother]
      exact h.consumers id r
  · have hknown := h.known id r hw
    exact ⟨hknown.1, Nat.lt_succ_of_lt hknown.2⟩
  · change (s.inFlight.set key s.started).get? key' = some r at hlive
    rw [OrderedMap.get?_set] at hlive
    split_ifs at hlive with hkey
    · obtain rfl := Option.some.inj hlive
      rw [hfresh, hkey]
      exact ⟨Nat.lt_succ_self _, rfl, rfl⟩
    · obtain ⟨hstarted, hrest⟩ := h.live key' r hlive
      rw [hrequests r hstarted]
      exact ⟨Nat.lt_succ_of_lt hstarted, hrest⟩
  · have hold : s.Doomed r := by
      unfold Doomed at hd ⊢
      rw [hrequests r (h.known id r hw).2] at hd
      exact hd
    exact h.doomed id r hw hold

/-- A waiting call ends, cancelled only if that is its own doing or a stop's. -/
theorem finish (h : s.Fair) (hwaiting : s.Waits id r) {outcome : Settlement ρ δ}
    (hself : ∀ reason, outcome = .cancelled reason →
      (s.calls id).aborted.isSome ∨ (s.calls id).sawStop = true) :
    (s.finish id r outcome).Fair ∧ ∀ id' r', (s.finish id r outcome).Waits id' r' ↔
      id' ≠ id ∧ s.Waits id' r' := by
  have hcalls : ∀ id', (s.finish id r outcome).calls id' =
      if id' = id then { s.calls id with outcome := some outcome } else s.calls id' :=
    fun id' => Function.update_apply _ _ _ _
  have hrequests : ∀ r', (s.finish id r outcome).requests r' = if r' = r then
      { s.requests r with consumers := (s.requests r).consumers.filter fun other => other ≠ id }
      else s.requests r' :=
    fun r' => Function.update_apply _ _ _ _
  have hwaits : ∀ id' r', (s.finish id r outcome).Waits id' r' ↔ id' ≠ id ∧ s.Waits id' r' := by
    intro id' r'
    unfold Waits
    rw [hcalls]
    split_ifs with hid
    · refine iff_of_false ?_ fun hw => hw.1 hid
      rintro ⟨-, hout⟩
      cases hout
    · simp [hid]
  have hsame : s.SameRequests (s.finish id r outcome) := .of_update rfl
  refine ⟨⟨fun id' r' => ?_, fun id' r' hw => h.known id' r' ((hwaits id' r').mp hw).2,
    fun key r' => hsame.live h, fun id' r' hw hd => ?_, fun hs id' hid => ?_,
    fun id' reason hout => ?_⟩, hwaits⟩
  · rw [hwaits, ← h.consumers, hrequests]
    split_ifs with hr
    · rw [hr, List.mem_filter]
      simp [and_comm]
    · refine (and_iff_right_of_imp fun hmem hid => hr ?_).symm
      have hother : s.Waits id r' := hid ▸ (h.consumers id' r').mp hmem
      exact Option.some.inj (hother.1.symm.trans hwaiting.1)
  · obtain ⟨hne, hold⟩ := (hwaits id' r').mp hw
    rw [hcalls, if_neg hne]
    exact h.doomed id' r' hold (hsame.doomed_iff.mp hd)
  · rw [hcalls]
    split_ifs with hne
    · exact h.stopped hs id (hne ▸ hid)
    · exact h.stopped hs id' hid
  · rw [hcalls] at hout ⊢
    split_ifs at hout ⊢ with hne
    · exact hself reason (Option.some.inj hout)
    · exact h.selfInflicted id' reason hout

/-- A change of a request that its consumers, its key and whether it has settled
survive; who waits for it may be doomed by it only if it saw a stop. -/
theorem updateRequest (h : s.Fair) {f : SharedRequest κ ρ δ → SharedRequest κ ρ δ}
    (hconsumers : (f (s.requests r)).consumers = (s.requests r).consumers)
    (hkey : (f (s.requests r)).key = (s.requests r).key)
    (hlive : ∀ key, s.inFlight.get? key = some r → (f (s.requests r)).settlement = none)
    (hdoomed : (s.updateRequest r f).Doomed r → ∀ id, s.Waits id r →
      (s.calls id).sawStop = true) : (s.updateRequest r f).Fair := by
  have hrequests : ∀ r', (s.updateRequest r f).requests r' =
      if r' = r then f (s.requests r) else s.requests r' :=
    fun r' => Function.update_apply _ _ _ _
  refine ⟨fun id r' => ?_, h.known, fun key r' hget => ?_, fun id r' hw hd => ?_, h.stopped,
    h.selfInflicted⟩
  · rw [hrequests]
    split_ifs with hr
    · rw [hconsumers, hr]
      exact h.consumers id r
    · exact h.consumers id r'
  · obtain ⟨hstarted, hkeyOf, hsettlement⟩ := h.live key r' hget
    rw [hrequests]
    split_ifs with hr
    · subst hr
      exact ⟨hstarted, hkey.trans hkeyOf, hlive key hget⟩
    · exact ⟨hstarted, hkeyOf, hsettlement⟩
  · by_cases hr : r' = r
    · subst hr
      exact hdoomed hd id hw
    · refine h.doomed id r' hw ?_
      unfold Doomed at hd ⊢
      rw [hrequests, if_neg hr] at hd
      exact hd

/-- A request is cancelled for which only calls wait that saw a stop. -/
theorem cancel (h : s.Fair) (reason : ρ)
    (hall : ∀ id, s.Waits id r → (s.calls id).sawStop = true) : (s.cancel reason r).Fair :=
  h.updateRequest rfl rfl (fun key hget => (h.live key r hget).2.2) fun _ => hall

/-- The signal of a call is aborted, which is noted with the call. -/
theorem signal (h : s.Fair) (id : ℕ) (reason : ρ) :
    (s.updateCall id fun call => { call with aborted := some reason }).Fair := by
  have hcalls : ∀ id', (s.updateCall id fun call => { call with aborted := some reason }).calls id'
      = if id' = id then { s.calls id with aborted := some reason } else s.calls id' :=
    fun id' => Function.update_apply _ _ _ _
  have hsame : ∀ id',
      ((s.updateCall id fun call => { call with aborted := some reason }).calls id').waitingFor
        = (s.calls id').waitingFor ∧
      ((s.updateCall id fun call => { call with aborted := some reason }).calls id').outcome
        = (s.calls id').outcome ∧
      ((s.updateCall id fun call => { call with aborted := some reason }).calls id').sawStop
        = (s.calls id').sawStop := by
    intro id'
    rw [hcalls]
    split_ifs with hid
    · rw [hid]
      exact ⟨rfl, rfl, rfl⟩
    · exact ⟨rfl, rfl, rfl⟩
  have hwaits : ∀ id' r, (s.updateCall id fun call => { call with aborted := some reason }).Waits
      id' r ↔ s.Waits id' r := by
    intro id' r
    unfold Waits
    rw [(hsame id').1, (hsame id').2.1]
  refine ⟨fun id' r => (h.consumers id' r).trans (hwaits id' r).symm,
    fun id' r hw => h.known id' r ((hwaits id' r).mp hw), h.live, fun id' r hw hd => ?_,
    fun hs id' hid => ?_, fun id' reason' hout => ?_⟩
  · rw [(hsame id').2.2]
    exact h.doomed id' r ((hwaits id' r).mp hw) hd
  · rw [(hsame id').2.2]
    exact h.stopped hs id' hid
  · rw [(hsame id').2.1] at hout
    rw [(hsame id').2.2, hcalls]
    split_ifs
    · exact Or.inl rfl
    · exact h.selfInflicted id' reason' hout

theorem leave (h : s.Fair) (leaveReason : ρ → ρ) (hwaiting : s.Waits id r)
    (haborted : (s.calls id).aborted.isSome) (reason : ρ) :
    (s.leave leaveReason id r reason).Fair := by
  have hended : ∀ reason', Settlement.cancelled reason = (.cancelled reason' : Settlement ρ δ) →
      (s.calls id).aborted.isSome ∨ (s.calls id).sawStop = true := fun _ _ => Or.inl haborted
  obtain ⟨hleft, -⟩ := h.finish hwaiting hended
  unfold Coalescing.leave
  dsimp only
  split_ifs with hempty
  · -- Nobody waits for the request that is cancelled now.
    refine hleft.cancel _ fun id' hw => ?_
    have hmem := (hleft.consumers id' r).mpr hw
    rw [hempty.1] at hmem
    exact absurd hmem List.not_mem_nil
  · exact hleft

theorem abort (h : s.Fair) {leaveReason : ρ → ρ} {s' : Coalescing κ ρ δ}
    (habort : s.abort leaveReason id reason = some s') : s'.Fair := by
  unfold Coalescing.abort at habort
  split_ifs at habort with hguard
  have hsignal := h.signal id reason
  dsimp only at habort
  cases hw : (s.calls id).waitingFor with
  | none =>
      rw [hw] at habort
      obtain rfl := Option.some.inj habort
      exact hsignal
  | some r =>
      cases hout : (s.calls id).outcome with
      | some outcome =>
          rw [hw, hout] at habort
          obtain rfl := Option.some.inj habort
          exact hsignal
      | none =>
          rw [hw, hout] at habort
          obtain rfl := Option.some.inj habort
          have hcall : (s.updateCall id fun call => { call with aborted := some reason }).calls id
              = { s.calls id with aborted := some reason } := Function.update_self _ _ _
          refine hsignal.leave leaveReason ?_ ?_ reason
          · unfold Waits
            rw [hcall]
            exact ⟨hw, hout⟩
          · rw [hcall]
            rfl

theorem delete (h : s.Fair) (key : κ) :
    ({ s with inFlight := s.inFlight.delete key } : Coalescing κ ρ δ).Fair where
  consumers := h.consumers
  known := h.known
  live := by
    intro key' r hget
    change (s.inFlight.delete key).get? key' = some r at hget
    rw [OrderedMap.get?_delete] at hget
    split_ifs at hget
    exact h.live key' r hget
  doomed := h.doomed
  stopped := h.stopped
  selfInflicted := h.selfInflicted

/-- A load that settles dooms only calls that saw a stop, if a cancellation finds no others. -/
theorem doomed_of_settled (h : s.Fair) {settlement : Settlement ρ δ}
    (hcancelled : ∀ reason, settlement = .cancelled reason → ∀ id, s.Waits id r →
      (s.calls id).sawStop = true)
    (hd : (s.updateRequest r fun request =>
      { request with settlement := some settlement }).Doomed r) (id : ℕ) (hw : s.Waits id r) :
    (s.calls id).sawStop = true := by
  have hrequest : (s.updateRequest r fun request =>
      { request with settlement := some settlement }).requests r
        = { s.requests r with settlement := some settlement } := Function.update_self _ _ _
  unfold Doomed at hd
  rw [hrequest] at hd
  rcases hd with haborted | ⟨reason, hreason⟩
  · exact h.doomed id r hw (Or.inl haborted)
  · exact hcancelled reason (Option.some.inj hreason) id hw

theorem close (h : s.Fair) {settlement : Settlement ρ δ} {s' : Coalescing κ ρ δ}
    (hcancelled : ∀ reason, settlement = .cancelled reason → ∀ id, s.Waits id r →
      (s.calls id).sawStop = true)
    (hclose : s.close r settlement = some s') : s'.Fair := by
  unfold Coalescing.close at hclose
  split_ifs at hclose with hguard
  dsimp only at hclose
  cases hkey : (s.requests r).key with
  | none =>
      rw [hkey] at hclose
      obtain rfl := Option.some.inj hclose
      refine h.updateRequest rfl rfl (fun key hget => ?_) (h.doomed_of_settled hcancelled)
      rw [(h.live key r hget).2.1] at hkey
      cases hkey
  | some key =>
      rw [hkey] at hclose
      dsimp only at hclose
      split_ifs at hclose with hflight
      · obtain rfl := Option.some.inj hclose
        refine (h.delete key).updateRequest (r := r)
          (f := fun request => { request with settlement := some settlement }) rfl rfl
          (fun key' hget => ?_) ((h.delete key).doomed_of_settled hcancelled)
        -- It was in flight under its key alone.
        change (s.inFlight.delete key).get? key' = some r at hget
        rw [OrderedMap.get?_delete] at hget
        split_ifs at hget with hother
        have hown := (h.live key' r hget).2.1
        exact absurd (Option.some.inj (hown.symm.trans hkey)) hother
      · obtain rfl := Option.some.inj hclose
        refine h.updateRequest rfl rfl (fun key' hget => ?_) (h.doomed_of_settled hcancelled)
        have hown := (h.live key' r hget).2.1
        obtain rfl := Option.some.inj (hown.symm.trans hkey)
        exact absurd hget hflight

/-- A load that fails by itself with a cancellation was cancelled before, or the service stopped. -/
theorem settle [DecidableEq ρ] (h : s.Fair) {cutOff : ρ → ρ} {settlement : Settlement ρ δ}
    {s' : Coalescing κ ρ δ} (hsettle : s.settle cutOff r settlement = some s') : s'.Fair := by
  unfold Coalescing.settle at hsettle
  split_ifs at hsettle with hadmissible
  refine h.close (fun reason hreason id hw => ?_) hsettle
  subst hreason
  rcases hadmissible with ⟨cause, hcause, -⟩ | ⟨cause, hcause, -⟩
  · exact h.doomed id r hw (Or.inl (Option.isSome_iff_exists.mpr ⟨cause, hcause⟩))
  · exact h.stopped (Option.isSome_iff_exists.mpr ⟨cause, hcause⟩) id (h.known id r hw).1

theorem timeOut (h : s.Fair) {service : CoalescingService κ ρ δ} {s' : Coalescing κ ρ δ}
    (hin : s.InTime (.timeOut r)) (htimeOut : s.timeOut service r = some s') : s'.Fair := by
  obtain ⟨limit, -, hclose⟩ := Option.bind_eq_some_iff.mp htimeOut
  refine h.close (fun reason _ id hw => ?_) hclose
  rcases hin with hempty | hstopped
  · have hmem := (h.consumers id r).mpr hw
    rw [hempty] at hmem
    exact absurd hmem List.not_mem_nil
  · exact h.stopped hstopped id (h.known id r hw).1

theorem deliver (h : s.Fair) {s' : Coalescing κ ρ δ} (hdeliver : s.deliver id = some s') :
    s'.Fair := by
  unfold Coalescing.deliver at hdeliver
  cases hw : (s.calls id).waitingFor with
  | none =>
      rw [hw] at hdeliver
      cases hdeliver
  | some r =>
      cases hout : (s.calls id).outcome with
      | some outcome =>
          rw [hw, hout] at hdeliver
          cases hdeliver
      | none =>
          rw [hw, hout] at hdeliver
          obtain ⟨settlement, hsettlement, rfl⟩ := Option.map_eq_some_iff.mp hdeliver
          refine (h.finish ⟨hw, hout⟩ fun reason hreason => Or.inr ?_).1
          exact h.doomed id r ⟨hw, hout⟩ (Or.inr ⟨reason, hreason ▸ hsettlement⟩)

theorem markStopped (h : s.Fair) (reason : ρ) : (s.markStopped reason).Fair where
  consumers := h.consumers
  known := h.known
  live := h.live
  doomed _ _ _ _ := rfl
  stopped _ _ _ := rfl
  selfInflicted _ _ _ := Or.inr rfl

theorem restart (h : s.Fair) : ({ s with stopped := none } : Coalescing κ ρ δ).Fair where
  consumers := h.consumers
  known := h.known
  live := h.live
  doomed := h.doomed
  stopped := by
    intro hstopped
    cases hstopped
  selfInflicted := h.selfInflicted

/-- All consumers of a request are turned away, if they saw the stop. -/
theorem rejectConsumers (h : s.Fair) (reason : ρ)
    (hall : ∀ id, s.Waits id r → (s.calls id).sawStop = true) :
    (s.rejectConsumers reason r).Fair ∧
      ∀ id, ((s.rejectConsumers reason r).calls id).sawStop = (s.calls id).sawStop := by
  have hcalls : ∀ id, (s.rejectConsumers reason r).calls id =
      if id ∈ (s.requests r).consumers then
        { s.calls id with outcome := some (.cancelled reason) } else s.calls id := fun id => rfl
  have hrequests : ∀ r', (s.rejectConsumers reason r).requests r' =
      if r' = r then { s.requests r with consumers := [] } else s.requests r' :=
    fun r' => Function.update_apply _ _ _ _
  have hsaw : ∀ id, ((s.rejectConsumers reason r).calls id).sawStop = (s.calls id).sawStop := by
    intro id
    rw [hcalls]
    split_ifs <;> rfl
  have hwaits : ∀ id r', (s.rejectConsumers reason r).Waits id r' ↔ r' ≠ r ∧ s.Waits id r' := by
    intro id r'
    unfold Waits
    rw [hcalls]
    split_ifs with hmem
    · have hold := (h.consumers id r).mp hmem
      refine iff_of_false ?_ fun hw => hw.1 (Option.some.inj (hw.2.1.symm.trans hold.1))
      rintro ⟨-, hout⟩
      cases hout
    · refine (and_iff_right_of_imp ?_).symm
      rintro hw rfl
      exact hmem ((h.consumers id r').mpr hw)
  have hsame : s.SameRequests (s.rejectConsumers reason r) := .of_update rfl
  refine ⟨⟨fun id r' => ?_, fun id r' hw => h.known id r' ((hwaits id r').mp hw).2,
    fun key r' => hsame.live h, fun id r' hw hd => ?_, fun hs id hid => ?_,
    fun id reason' hout => ?_⟩, hsaw⟩
  · rw [hwaits, hrequests]
    split_ifs with hr
    · exact iff_of_false List.not_mem_nil fun hw => hw.1 hr
    · rw [h.consumers]
      exact (and_iff_right hr).symm
  · rw [hsaw]
    exact h.doomed id r' ((hwaits id r').mp hw).2 (hsame.doomed_iff.mp hd)
  · rw [hsaw]
    exact h.stopped hs id hid
  · rw [hcalls] at hout ⊢
    split_ifs at hout ⊢ with hmem
    · exact Or.inr (hall id ((h.consumers id r).mp hmem))
    · exact h.selfInflicted id reason' hout

theorem call (h : s.Fair) {key : κ} {abortable : Bool} {aborted : Option ρ} {cached : Option δ}
    (hlive : JoinsLive s (.call key abortable aborted cached)) :
    (s.call key abortable aborted cached).Fair := by
  cases aborted with
  | some reason => exact h.addCall_ended rfl rfl fun _ _ => rfl
  | none =>
      cases cached with
      | some result =>
          refine h.addCall_ended rfl rfl fun reason hout => ?_
          cases hout
      | none =>
          simp only [Coalescing.call]
          cases hget : s.inFlight.get? key with
          | some r =>
              obtain ⟨hstarted, -, hsettlement⟩ := h.live key r hget
              refine h.join hstarted fun hdoomed => ?_
              rcases hdoomed with hcancelled | ⟨reason, hreason⟩
              · rcases hlive r hget with hnone | hstopped
                · rw [Option.isNone_iff_eq_none.mp hnone] at hcancelled
                  cases hcancelled
                · exact hstopped
              · rw [hsettlement] at hreason
                cases hreason
          | none =>
              refine (h.start key).join (Nat.lt_succ_self _) fun hdoomed => ?_
              have hfresh : (s.start key).requests s.started = ⟨some key, none, none, []⟩ :=
                Function.update_self _ _ _
              unfold Doomed at hdoomed
              rw [hfresh] at hdoomed
              rcases hdoomed with hcancelled | ⟨reason, hreason⟩
              · cases hcancelled
              · cases hreason

/-- **One step keeps it fair** if it is considerate. -/
theorem step [DecidableEq ρ] (h : s.Fair) {service : CoalescingService κ ρ δ}
    (hstop : ∀ s : Coalescing κ ρ δ, s.Fair → (service.stop s).Fair) {e : Event κ ρ δ}
    {s' : Coalescing κ ρ δ} (hok : s.Considerate e) (hstep : s.step service e = some s') :
    s'.Fair := by
  cases e with
  | call key abortable aborted cached =>
      obtain rfl := Option.some.inj hstep
      exact h.call hok.1
  | abort id reason => exact h.abort hstep
  | settle r settlement => exact h.settle hstep
  | timeOut r => exact h.timeOut hok.2 hstep
  | deliver id => exact h.deliver hstep
  | stop =>
      obtain rfl := Option.some.inj hstep
      exact hstop s h
  | restart =>
      simp only [Coalescing.step] at hstep
      split_ifs at hstep
      obtain rfl := Option.some.inj hstep
      exact h.restart

end Fair

/-- **In a run of considerate steps, calls are cancelled by their own signal or
by a stop.** -/
theorem selfInflicted_of_reachable [DecidableEq ρ] {service : CoalescingService κ ρ δ}
    (hstop : ∀ s : Coalescing κ ρ δ, s.Fair → (service.stop s).Fair) {s : Coalescing κ ρ δ}
    (hr : (system service).Reachable Considerate s) : s.SelfInflicted := by
  refine (hr.invariant Fair ?_ ?_).selfInflicted
  · rintro s rfl
    exact Fair.new
  · intro s e s' h hok hstep
    exact h.step hstop hok hstep

end Coalescing

end OpenStreamGrid
