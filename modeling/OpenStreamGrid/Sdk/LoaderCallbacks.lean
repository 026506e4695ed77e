import Mathlib.Tactic.SplitIfs
import OpenStreamGrid.Lib.TransitionSystem

/-!
# The loader's callbacks

`OpenStreamGridLoader` on a media segment that it loads through the grid. The
load can end by the grid's result or error, by the loader's own timer, and by
the player's `abort()` or `destroy()`. What the grid settles with and when the
loader goes on with it are separate events: a call of the player may come
between them.
-/

namespace OpenStreamGrid

namespace Sdk

/-- `loadSegment` returns bytes or throws; the message is there if it throws an `Error`. -/
inductive GridOutcome where
  | result (data : List UInt8)
  | error (message : Option String)
deriving DecidableEq

/-- `loadThroughGrid` under way. -/
inductive GridLoad where
  | waiting
  /-- The promise is settled, and the loader has not gone on yet. -/
  | settled (outcome : GridOutcome)
  | finished
deriving DecidableEq

/-- The calls between the loader and the player, those of the player included. -/
inductive LoaderCall where
  | onSuccess (data : List UInt8)
  | onError (text : String)
  | onTimeout
  | onAbort
  | abort
  | destroy
deriving DecidableEq

namespace LoaderCall

/-- Tells the player how the load ended. -/
def ends : LoaderCall → Bool
  | .onSuccess _ | .onError _ | .onTimeout => true
  | _ => false

/-- The player gives the load up. -/
def closes : LoaderCall → Bool
  | .abort | .destroy => true
  | _ => false

end LoaderCall

structure OpenStreamGridLoader where
  aborted : Bool
  timedOut : Bool
  /-- `callbacks` and `context` are set; `destroy` drops both. -/
  attached : Bool
  /-- `abortController.signal.aborted` -/
  signalAborted : Bool
  timerArmed : Bool
  grid : GridLoad
  /-- Every call so far, the first one first. -/
  calls : List LoaderCall
deriving DecidableEq

namespace OpenStreamGridLoader

/-- The loader after `load` of a whole media segment. -/
def load : OpenStreamGridLoader := ⟨false, false, true, false, true, .waiting, []⟩

def call (s : OpenStreamGridLoader) (call : LoaderCall) : OpenStreamGridLoader :=
  { s with calls := s.calls ++ [call] }

def destroy (s : OpenStreamGridLoader) : OpenStreamGridLoader :=
  { s.call .destroy with signalAborted := true, attached := false }

def abort (s : OpenStreamGridLoader) : OpenStreamGridLoader :=
  let s := s.call .abort
  if s.aborted then s
  else
    let s := { s with aborted := true, signalAborted := true }
    if s.attached then s.call .onAbort else s

def onTimer (s : OpenStreamGridLoader) : OpenStreamGridLoader :=
  let s := { s with timerArmed := false }
  if s.aborted ∨ s.timedOut then s
  else { s with timedOut := true, signalAborted := true }.call .onTimeout

def reportError (s : OpenStreamGridLoader) (message : Option String) : OpenStreamGridLoader :=
  if s.aborted ∨ s.timedOut then s
  else s.call (.onError (message.getD "OpenStreamGrid segment load failed"))

/-- The rest of `loadThroughGrid`, and the timer is cleared. What the player's `onSuccess`
throws is caught with the grid's errors. -/
def finish (s : OpenStreamGridLoader) (thrown : Option String) :
    GridOutcome → OpenStreamGridLoader
  | .error message => { s.reportError message with grid := .finished, timerArmed := false }
  | .result data =>
      if s.aborted ∨ s.timedOut then { s with grid := .finished, timerArmed := false }
      else
        let s := s.call (.onSuccess data)
        let s := if thrown.isSome then s.reportError thrown else s
        { s with grid := .finished, timerArmed := false }

inductive Event where
  | gridSettles (outcome : GridOutcome)
  /-- The loader goes on; `thrown` is what `onSuccess` throws, if it is called and throws. -/
  | continues (thrown : Option String)
  | timerFires
  | abort
  | destroy
deriving DecidableEq

def step (s : OpenStreamGridLoader) : Event → Option OpenStreamGridLoader
  | .gridSettles outcome =>
      match s.grid with
      | .waiting => some { s with grid := .settled outcome }
      | _ => none
  | .continues thrown =>
      match s.grid with
      | .settled outcome => some (s.finish thrown outcome)
      | _ => none
  | .timerFires => if s.timerArmed then some s.onTimer else none
  | .abort => some s.abort
  | .destroy => some s.destroy

def system : TransitionSystem OpenStreamGridLoader Event where
  init s := s = load
  step := step

/-! ## The contract -/

/-- The player hears one end at most, and none after it has given the load up. -/
structure KeepsContract (calls : List LoaderCall) : Prop where
  once : (calls.filter LoaderCall.ends).length ≤ 1
  silent : calls.Pairwise fun earlier later => earlier.closes = true → later.ends = false

/-- Nothing is left to tell the player. -/
def Over (s : OpenStreamGridLoader) : Prop :=
  s.aborted = true ∨ s.timedOut = true ∨ s.grid = .finished

instance (s : OpenStreamGridLoader) : Decidable s.Over := inferInstanceAs (Decidable (_ ∨ _))

/-- The player destroys only a loader that has nothing left to tell, and its `onSuccess`
does not throw. -/
def Orderly (s : OpenStreamGridLoader) : Event → Prop
  | .destroy => s.Over
  | .continues thrown => thrown = none
  | _ => True

/-- What every step of an orderly run keeps. -/
structure Settled (s : OpenStreamGridLoader) : Prop where
  contract : KeepsContract s.calls
  ended : ∀ call ∈ s.calls, (call.ends || call.closes) = true → s.Over
  disarmed : s.grid = .finished → s.timerArmed = false

variable {s s' : OpenStreamGridLoader}

/-- A call that ends the load has to be the first that ends or gives it up. -/
theorem KeepsContract.snoc {calls : List LoaderCall} (h : KeepsContract calls) {call : LoaderCall}
    (hfirst : call.ends = true → ∀ earlier ∈ calls, (earlier.ends || earlier.closes) = false) :
    KeepsContract (calls ++ [call]) := by
  constructor
  · rw [List.filter_append, List.length_append]
    cases hends : call.ends with
    | false =>
        rw [List.filter_cons_of_neg (by simp [hends])]
        exact h.once
    | true =>
        have hnone : calls.filter LoaderCall.ends = [] := by
          rw [List.filter_eq_nil_iff]
          intro earlier hmem hearlier
          have := hfirst hends earlier hmem
          rw [hearlier, Bool.true_or] at this
          exact Bool.noConfusion this
        rw [hnone, List.length_nil, Nat.zero_add]
        exact List.length_filter_le _ [call]
  · rw [List.pairwise_append]
    refine ⟨h.silent, List.pairwise_singleton _ _, fun earlier hmem later hlater hcloses => ?_⟩
    obtain rfl := List.mem_singleton.mp hlater
    rw [Bool.eq_false_iff]
    intro hends
    have := hfirst hends earlier hmem
    rw [hcloses, Bool.or_true] at this
    exact Bool.noConfusion this

namespace Settled

/-- As long as something is left to tell, nothing has ended the load or given it up. -/
theorem open_of_not_over (h : s.Settled) (hover : ¬ s.Over) :
    ∀ call ∈ s.calls, (call.ends || call.closes) = false := by
  intro call hmem
  rw [Bool.eq_false_iff]
  exact fun hcall => hover (h.ended call hmem hcall)

/-- One more call, after which nothing is left to tell. -/
theorem call_over (h : s.Settled) {call : LoaderCall} (hends : call.ends = true → ¬ s.Over)
    (hcalls : s'.calls = s.calls ++ [call]) (hover : s'.Over)
    (hdisarmed : s'.grid = .finished → s'.timerArmed = false) : s'.Settled where
  contract := by
    rw [hcalls]
    exact h.contract.snoc fun hcall => h.open_of_not_over (hends hcall)
  ended _ _ _ := hover
  disarmed := hdisarmed

theorem abort (h : s.Settled) : s.abort.Settled := by
  have hcalled : KeepsContract (s.calls ++ [.abort]) :=
    h.contract.snoc fun hends => Bool.noConfusion hends
  unfold OpenStreamGridLoader.abort
  dsimp only
  split_ifs with haborted hattached
  · exact ⟨hcalled, fun _ _ _ => Or.inl haborted, h.disarmed⟩
  · exact ⟨hcalled.snoc fun hends => Bool.noConfusion hends, fun _ _ _ => Or.inl rfl,
      h.disarmed⟩
  · exact ⟨hcalled, fun _ _ _ => Or.inl rfl, h.disarmed⟩

theorem destroy (h : s.Settled) (hover : s.Over) : s.destroy.Settled :=
  h.call_over (fun hends => Bool.noConfusion hends) rfl hover h.disarmed

theorem onTimer (h : s.Settled) (harmed : s.timerArmed = true) : s.onTimer.Settled := by
  have hwaits : s.grid ≠ .finished := by
    intro hfinished
    rw [h.disarmed hfinished] at harmed
    exact Bool.noConfusion harmed
  unfold OpenStreamGridLoader.onTimer
  dsimp only
  split_ifs with hended
  · exact ⟨h.contract, h.ended, fun hfinished => absurd hfinished hwaits⟩
  · have hopen : ¬ s.Over := by
      rintro (haborted | htimedOut | hfinished)
      · exact hended (Or.inl haborted)
      · exact hended (Or.inr htimedOut)
      · exact hwaits hfinished
    exact h.call_over (fun _ => hopen) rfl (Or.inr (Or.inl rfl)) fun _ => rfl

/-- The end of the grid's load, unless the player throws. -/
theorem finish (h : s.Settled) {outcome : GridOutcome} (hgrid : s.grid = .settled outcome) :
    (s.finish none outcome).Settled := by
  have hopen : ¬ (s.aborted = true ∨ s.timedOut = true) → ¬ s.Over := by
    rintro hended (haborted | htimedOut | hfinished)
    · exact hended (Or.inl haborted)
    · exact hended (Or.inr htimedOut)
    · rw [hgrid] at hfinished
      cases hfinished
  cases outcome with
  | result data =>
      simp only [OpenStreamGridLoader.finish]
      split_ifs with hended hthrown
      · exact ⟨h.contract, fun _ _ _ => Or.inr (Or.inr rfl), fun _ => rfl⟩
      · cases hthrown
      · exact h.call_over (fun _ => hopen hended) rfl (Or.inr (Or.inr rfl)) fun _ => rfl
  | error message =>
      simp only [OpenStreamGridLoader.finish, reportError]
      split_ifs with hended
      · exact ⟨h.contract, fun _ _ _ => Or.inr (Or.inr rfl), fun _ => rfl⟩
      · exact h.call_over (fun _ => hopen hended) rfl (Or.inr (Or.inr rfl)) fun _ => rfl

theorem step (h : s.Settled) {e : Event} (hok : s.Orderly e) (hstep : s.step e = some s') :
    s'.Settled := by
  cases e with
  | gridSettles outcome =>
      simp only [OpenStreamGridLoader.step] at hstep
      split at hstep
      · rename_i hgrid
        obtain rfl := Option.some.inj hstep
        refine ⟨h.contract, fun call hmem hcall => ?_,
          fun hfinished => GridLoad.noConfusion hfinished⟩
        rcases h.ended call hmem hcall with haborted | htimedOut | hfinished
        · exact Or.inl haborted
        · exact Or.inr (Or.inl htimedOut)
        · rw [hgrid] at hfinished
          cases hfinished
      · cases hstep
  | continues thrown =>
      simp only [OpenStreamGridLoader.step] at hstep
      split at hstep
      · rename_i outcome hgrid
        obtain rfl := Option.some.inj hstep
        change thrown = none at hok
        rw [hok]
        exact h.finish hgrid
      · cases hstep
  | timerFires =>
      simp only [OpenStreamGridLoader.step] at hstep
      split_ifs at hstep with harmed
      obtain rfl := Option.some.inj hstep
      exact h.onTimer harmed
  | abort =>
      obtain rfl := Option.some.inj hstep
      exact h.abort
  | destroy =>
      obtain rfl := Option.some.inj hstep
      exact h.destroy hok

end Settled

/-- **An orderly run keeps the contract** in every state it reaches. -/
theorem orderly_keeps_contract (hr : system.Reachable Orderly s) : KeepsContract s.calls := by
  have hsettled : s.Settled := by
    refine hr.invariant Settled ?_ ?_
    · rintro s rfl
      exact ⟨⟨Nat.zero_le 1, .nil⟩, fun _ hmem => absurd hmem List.not_mem_nil,
        fun h => GridLoad.noConfusion h⟩
    · intro s e s' h hok hstep
      exact h.step hok hstep
  exact hsettled.contract

/-- A load that times out is destroyed and aborted afterwards. -/
theorem orderly_keeps_contract_timeout :
    KeepsContract ((system.run load [.timerFires, .destroy, .gridSettles (.error none),
      .continues none, .abort]).getD load).calls := by
  have hok : system.RunOk Orderly load [.timerFires, .destroy, .gridSettles (.error none),
      .continues none, .abort] := by
    refine ⟨trivial, fun _ h1 => ⟨?_, fun _ h2 => ⟨trivial, fun _ h3 =>
      ⟨rfl, fun _ h4 => ⟨trivial, fun _ _ => trivial⟩⟩⟩⟩⟩
    cases h1
    exact Or.inr (Or.inl rfl)
  exact orderly_keeps_contract (TransitionSystem.Reachable.append_run (.init rfl) hok rfl)

/-- Destroying a load under way aborts its signal, and the player is told of that as an error. -/
theorem destroyed_load_reports_error :
    ¬ ∀ s, system.Reachable (fun _ _ => True) s → KeepsContract s.calls := by
  intro h
  have hrun : system.run load [.destroy, .gridSettles (.error (some "This operation was aborted")),
      .continues none]
      = some ⟨false, false, false, true, false, .finished,
          [.destroy, .onError "This operation was aborted"]⟩ := rfl
  have hkeeps := h _ (TransitionSystem.reachable_of_run rfl hrun)
  have hlater := (List.pairwise_cons.mp hkeeps.silent).1
    (.onError "This operation was aborted") List.mem_cons_self rfl
  cases hlater

end OpenStreamGridLoader

end Sdk

end OpenStreamGrid
