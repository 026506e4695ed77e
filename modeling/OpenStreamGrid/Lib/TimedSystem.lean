import Mathlib.Algebra.Order.Field.Rat
import Mathlib.Algebra.Order.Ring.NNRat
import OpenStreamGrid.Lib.TransitionSystem

/-!
# Transition systems with a clock

Between events time passes, but never beyond an armed timer: a timer fires on
time because no run can go past it. A property of clock and state holds in every
run if it holds at the start, is kept by every event at the time it happens, and
is kept while time passes up to the next timer.
-/

namespace OpenStreamGrid

/-- Initial states, the instants the timers of a state are armed for, and what an event does at
an instant; undefined where it cannot happen. -/
structure TimedSystem (σ ε : Type*) where
  init : σ → Prop
  timers : σ → List ℚ≥0
  event : ℚ≥0 → σ → ε → Option σ

/-- A state and the time since the start. -/
@[ext] structure Timed (σ : Type*) where
  clock : ℚ≥0
  state : σ
deriving DecidableEq

/-- Time passes, or something happens. -/
inductive TimedLabel (ε : Type*) where
  | elapse (duration : ℚ≥0)
  | event (e : ε)

namespace TimedSystem

variable {σ ε : Type*} (T : TimedSystem σ ε)

def step (t : Timed σ) : TimedLabel ε → Option (Timed σ)
  | .elapse duration =>
      if ∀ due ∈ T.timers t.state, t.clock + duration ≤ due then
        some { t with clock := t.clock + duration }
      else none
  | .event e => (T.event t.clock t.state e).map fun state => { t with state }

def toTransitionSystem : TransitionSystem (Timed σ) (TimedLabel ε) where
  init t := t.clock = 0 ∧ T.init t.state
  step := T.step

/-- The timed states of all runs. -/
def Reachable (t : Timed σ) : Prop := T.toTransitionSystem.Reachable (fun _ _ => True) t

variable {T}

/-- The invariant rule of timed runs. -/
theorem Reachable.invariant {t : Timed σ} (hr : T.Reachable t) (Inv : ℚ≥0 → σ → Prop)
    (hinit : ∀ s, T.init s → Inv 0 s)
    (hevent : ∀ clock s e s', Inv clock s → T.event clock s e = some s' → Inv clock s')
    (helapse : ∀ clock clock' s, Inv clock s → clock ≤ clock' →
      (∀ due ∈ T.timers s, clock' ≤ due) → Inv clock' s) :
    Inv t.clock t.state := by
  refine TransitionSystem.Reachable.invariant hr (fun t => Inv t.clock t.state) ?_ ?_
  · rintro ⟨clock, s⟩ ⟨hclock, hs⟩
    obtain rfl : clock = 0 := hclock
    exact hinit s hs
  · intro t label t' hinv _ hstep
    cases label with
    | elapse duration =>
        change (if ∀ due ∈ T.timers t.state, t.clock + duration ≤ due then
          some { t with clock := t.clock + duration } else none) = some t' at hstep
        split_ifs at hstep with hdue
        obtain rfl := Option.some.inj hstep
        exact helapse _ _ _ hinv le_self_add hdue
    | event e =>
        obtain ⟨s', hs', rfl⟩ := Option.map_eq_some_iff.mp hstep
        exact hevent _ _ _ _ hinv hs'

/-- What every event keeps at the time it happens, and the passing of time keeps, every step keeps,
here the steps that satisfy a condition. -/
theorem step_invariant (ok : Timed σ → TimedLabel ε → Prop) (Inv : ℚ≥0 → σ → Prop)
    (hevent : ∀ clock s e s', Inv clock s → ok ⟨clock, s⟩ (.event e) →
      T.event clock s e = some s' → Inv clock s')
    (helapse : ∀ clock duration s, Inv clock s → ok ⟨clock, s⟩ (.elapse duration) →
      (∀ due ∈ T.timers s, clock + duration ≤ due) → Inv (clock + duration) s)
    (t : Timed σ) (label : TimedLabel ε) (t' : Timed σ) (hinv : Inv t.clock t.state)
    (hok : ok t label) (hstep : T.toTransitionSystem.step t label = some t') :
    Inv t'.clock t'.state := by
  cases label with
  | elapse duration =>
      change (if ∀ due ∈ T.timers t.state, t.clock + duration ≤ due then
        some { t with clock := t.clock + duration } else none) = some t' at hstep
      split_ifs at hstep with hdue
      obtain rfl := Option.some.inj hstep
      exact helapse _ _ _ hinv hok hdue
  | event e =>
      obtain ⟨s', hs', rfl⟩ := Option.map_eq_some_iff.mp hstep
      exact hevent _ _ _ _ hinv hok hs'

/-- A run executed from an initial state. -/
theorem reachable_of_run {s : σ} (h0 : T.init s) {labels : List (TimedLabel ε)} {t : Timed σ}
    (hrun : T.toTransitionSystem.run ⟨0, s⟩ labels = some t) : T.Reachable t :=
  TransitionSystem.reachable_of_run (T := T.toTransitionSystem) ⟨rfl, h0⟩ hrun

end TimedSystem

end OpenStreamGrid
