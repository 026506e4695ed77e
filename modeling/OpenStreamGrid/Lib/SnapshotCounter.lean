import Mathlib.Algebra.Order.Ring.Nat

/-!
# Counters fed from snapshots

A gauge that can fall is exported as a counter that cannot: every snapshot adds
what the gauge gained since the previous one. Nothing is exported for a gain
that a fall has hidden before the snapshot was taken; the lemmas below say when
that cannot happen.
-/

namespace OpenStreamGrid

/-- What was exported, and the gauge as the latest snapshot saw it. -/
structure SnapshotCounter where
  exported : ℕ
  last : ℕ
deriving DecidableEq

namespace SnapshotCounter

variable (k : SnapshotCounter) {value value' gain removed : ℕ}

def snapshot (value : ℕ) : SnapshotCounter := ⟨k.exported + (value - k.last), value⟩

/-- What a snapshot of the value would export. -/
def due (value : ℕ) : ℕ := (k.snapshot value).exported

/-- A snapshot exports what is due and leaves nothing due. -/
@[simp] theorem due_snapshot (value : ℕ) : (k.snapshot value).due value = k.due value := by
  show k.exported + (value - k.last) + (value - value) = k.exported + (value - k.last)
  rw [Nat.sub_self, Nat.add_zero]

@[simp] theorem exported_snapshot (value : ℕ) : (k.snapshot value).exported = k.due value := rfl

@[simp] theorem last_snapshot (value : ℕ) : (k.snapshot value).last = value := rfl

/-- A gain falls due where the gauge has not fallen below the latest snapshot. -/
theorem due_gain (hgain : value' = value + gain) (h : 0 < gain → k.last ≤ value) :
    k.due value' = k.due value + gain := by
  show k.exported + (value' - k.last) = k.exported + (value - k.last) + gain
  rcases Nat.eq_zero_or_pos gain with hzero | hpos
  · omega
  · have hlast := h hpos
    omega

/-- A fall leaves what is due where the latest snapshot has seen all of the gauge. -/
theorem due_fall (hfall : value' + removed = value) (h : 0 < removed → value ≤ k.last) :
    k.due value' = k.due value := by
  show k.exported + (value' - k.last) = k.exported + (value - k.last)
  rcases Nat.eq_zero_or_pos removed with hzero | hpos
  · omega
  · have hlast := h hpos
    omega

end SnapshotCounter

end OpenStreamGrid
