import Mathlib.Data.List.Basic
import Mathlib.Tactic.Ring

/-!
# Consecutive slices

The loop that cuts a list into slices of a fixed length, the last one possibly
shorter. Producing a list slice by slice and cutting it again gives the same
slices, so two loops with the same length agree on them.
-/

namespace OpenStreamGrid

variable {α β : Type*}

/-- The slices a loop takes at the offsets `0, n, 2n, …` below the length. -/
def slices (n : ℕ) (xs : List α) : List (List α) :=
  (List.range ((xs.length + n - 1) / n)).map fun k => (xs.drop (n * k)).take n

@[simp] theorem slices_nil (n : ℕ) : slices n ([] : List α) = [] := by
  have hnone : ([] : List α).length + n - 1 < n ∨ n = 0 := by
    rw [List.length_nil]
    omega
  have hround : (([] : List α).length + n - 1) / n = 0 := by
    rcases hnone with hlt | rfl
    · exact Nat.div_eq_of_lt hlt
    · exact Nat.div_zero _
  rw [slices, hround, List.range_zero, List.map_nil]

/-- A list with elements starts with one slice and goes on with those of the rest. -/
theorem slices_of_ne_nil {n : ℕ} (hn : 0 < n) {xs : List α} (h : xs ≠ []) :
    slices n xs = xs.take n :: slices n (xs.drop n) := by
  have hlen : 0 < xs.length := List.length_pos_of_ne_nil h
  have hcount : (xs.length + n - 1) / n = ((xs.drop n).length + n - 1) / n + 1 := by
    rw [List.length_drop]
    by_cases hle : n ≤ xs.length
    · rw [← Nat.add_div_right _ hn]
      congr 1
      omega
    · have hlast : xs.length + n - 1 = xs.length - 1 + n := by omega
      have hrest : xs.length - n + n - 1 < n := by omega
      rw [hlast, Nat.add_div_right _ hn, Nat.div_eq_of_lt (by omega),
        Nat.div_eq_of_lt hrest]
  unfold slices
  rw [hcount, List.range_succ_eq_map, List.map_cons, List.map_map]
  congr 1
  refine List.map_congr_left fun k _ => ?_
  show (xs.drop (n * (k + 1))).take n = ((xs.drop n).drop (n * k)).take n
  rw [List.drop_drop]
  congr 2
  ring

theorem flatten_slices {n : ℕ} (hn : 0 < n) (xs : List α) : (slices n xs).flatten = xs := by
  induction h : xs.length using Nat.strong_induction_on generalizing xs with
  | _ length ih =>
      by_cases hnil : xs = []
      · simp [hnil]
      · have hlen : 0 < xs.length := List.length_pos_of_ne_nil hnil
        rw [slices_of_ne_nil hn hnil, List.flatten_cons,
          ih (xs.drop n).length (by rw [List.length_drop]; omega) _ rfl, List.take_append_drop]

/-- Pieces of the lengths of a list's slices are the slices of what they make up together. -/
theorem slices_flatten {n : ℕ} (hn : 0 < n) {xs : List α} {pieces : List (List β)}
    (h : pieces.map List.length = (slices n xs).map List.length) :
    slices n pieces.flatten = pieces := by
  induction hlen : xs.length using Nat.strong_induction_on generalizing xs pieces with
  | _ length ih =>
      by_cases hnil : xs = []
      · subst hnil
        rw [slices_nil, List.map_nil, List.map_eq_nil_iff] at h
        rw [h, List.flatten_nil, slices_nil]
      have hpos : 0 < xs.length := List.length_pos_of_ne_nil hnil
      rw [slices_of_ne_nil hn hnil, List.map_cons] at h
      cases pieces with
      | nil => cases h
      | cons piece rest =>
          obtain ⟨hpiece, hrest⟩ := List.cons_eq_cons.mp h
          rw [List.length_take] at hpiece
          have hrec : slices n rest.flatten = rest :=
            ih (xs.drop n).length (by rw [List.length_drop]; omega) hrest rfl
          have hne : piece ≠ [] := by
            apply List.ne_nil_of_length_pos
            omega
          rw [List.flatten_cons, slices_of_ne_nil hn (by simp [hne])]
          rcases eq_or_ne rest [] with rfl | hmore
          · have hle : piece.length ≤ n := by omega
            rw [List.flatten_nil, List.append_nil, List.take_of_length_le hle,
              List.drop_eq_nil_of_le hle, slices_nil]
          · -- Only the last slice can be shorter.
            have hfull : piece.length = n := by
              rw [hpiece]
              apply min_eq_left
              by_contra hshort
              have hdrop : xs.drop n = [] := List.drop_eq_nil_of_le (by omega)
              rw [hdrop, slices_nil, List.map_nil, List.map_eq_nil_iff] at hrest
              exact hmore hrest
            rw [List.take_left' hfull, List.drop_left' hfull, hrec]

/-! ## Cuts at given boundaries -/

/-- The pieces between boundaries that do not decrease, joined. -/
theorem flatten_cuts {boundary : ℕ → ℕ} (xs : List α) (hzero : boundary 0 = 0) {n : ℕ}
    (hmono : ∀ i < n, boundary i ≤ boundary (i + 1)) :
    ((List.range n).map fun i =>
      (xs.drop (boundary i)).take (boundary (i + 1) - boundary i)).flatten =
      xs.take (boundary n) := by
  induction n with
  | zero => rw [List.range_zero, List.map_nil, List.flatten_nil, hzero, List.take_zero]
  | succ n ih =>
      have hle : boundary n ≤ boundary (n + 1) := hmono n (Nat.lt_succ_self n)
      rw [List.range_succ, List.map_append, List.flatten_append,
        ih fun i hi => hmono i (Nat.lt_succ_of_lt hi), List.map_singleton, List.flatten_singleton]
      rw [← List.take_add, Nat.add_sub_cancel' hle]

end OpenStreamGrid
