import Mathlib.Algebra.Order.Ring.Nat
import Mathlib.Tactic.Ring

/-!
# Exponential backoff

Delays that are multiplied after every attempt, up to a maximum.
-/

namespace OpenStreamGrid

structure Backoff where
  initial : ℕ
  maximum : ℕ
  multiplier : ℕ
  initial_pos : 0 < initial
  initial_le_maximum : initial ≤ maximum
  multiplier_pos : 0 < multiplier

namespace Backoff

variable (b : Backoff) (n : ℕ)

def next (delay : ℕ) : ℕ := min (delay * b.multiplier) b.maximum

/-- The delay after so many attempts. -/
def delayAfter (attempts : ℕ) : ℕ := min (b.initial * b.multiplier ^ attempts) b.maximum

@[simp] theorem delayAfter_zero : b.delayAfter 0 = b.initial := by
  rw [delayAfter, pow_zero, mul_one, min_eq_left b.initial_le_maximum]

theorem next_delayAfter : b.next (b.delayAfter n) = b.delayAfter (n + 1) := by
  have hpow : b.initial * b.multiplier ^ (n + 1) = b.initial * b.multiplier ^ n * b.multiplier := by
    ring
  unfold next delayAfter
  rw [hpow]
  rcases le_total (b.initial * b.multiplier ^ n) b.maximum with h | h
  · rw [min_eq_left h]
  · have hgrown := Nat.le_mul_of_pos_right (b.initial * b.multiplier ^ n) b.multiplier_pos
    have hmax := Nat.le_mul_of_pos_right b.maximum b.multiplier_pos
    rw [min_eq_right h, min_eq_right hmax, min_eq_right (h.trans hgrown)]

theorem delayAfter_le_maximum : b.delayAfter n ≤ b.maximum := min_le_right _ _

theorem initial_le_delayAfter : b.initial ≤ b.delayAfter n :=
  le_min (Nat.le_mul_of_pos_right _ (Nat.pow_pos b.multiplier_pos)) b.initial_le_maximum

end Backoff

end OpenStreamGrid
