import Mathlib.Data.List.Perm.Basic
import Mathlib.Data.Rat.Floor
import OpenStreamGrid.Lib.OrderedMap

/-!
# Indexed lists, sampled in place

A list kept together with a map from its elements to their positions supports
sampling without replacement (each round exchanges the current position with a
random later one) and removal by moving the last element into the gap.
`Indexes` says that the map is the exact inverse of the list; it makes the list
duplicate-free and is kept by pushing, exchanging and removing.
-/

namespace OpenStreamGrid

/-- A number a random source may return: at least zero and below one. -/
abbrev Draw : Type := {r : ℚ // 0 ≤ r ∧ r < 1}

theorem zero_draw : (0 : ℚ) ≤ 0 ∧ (0 : ℚ) < 1 := ⟨le_rfl, zero_lt_one⟩

/-- The position a draw selects out of `n`. -/
def Draw.index (r : Draw) (n : ℕ) : ℕ := ⌊r.val * n⌋₊

theorem Draw.index_lt (r : Draw) {n : ℕ} (h : 0 < n) : r.index n < n := by
  have hn : (0 : ℚ) < n := Nat.cast_pos.mpr h
  refine (Nat.floor_lt (mul_nonneg r.2.1 hn.le)).mpr ?_
  calc r.val * n < 1 * n := mul_lt_mul_of_pos_right r.2.2 hn
    _ = n := one_mul _

variable {α : Type*} [DecidableEq α]

/-- The map gives exactly the positions of the list. -/
def Indexes (positions : OrderedMap α ℕ) (xs : List α) : Prop :=
  ∀ a i, positions.get? a = some i ↔ xs[i]? = some a

namespace Indexes

variable {positions : OrderedMap α ℕ} {xs : List α}

theorem empty : Indexes (∅ : OrderedMap α ℕ) [] := by
  intro a i
  simp

theorem nodup (h : Indexes positions xs) : xs.Nodup := by
  rw [List.nodup_iff_getElem?_ne_getElem?]
  intro i j hij hj heq
  have hi : xs[i]? = some (xs[j]) := heq.trans (List.getElem?_eq_getElem hj)
  have := ((h _ _).mpr hi).symm.trans ((h _ _).mpr (List.getElem?_eq_getElem hj))
  exact absurd (Option.some.inj this) (Nat.ne_of_lt hij)

theorem mem_iff (h : Indexes positions xs) {a : α} : a ∈ positions ↔ a ∈ xs := by
  rw [OrderedMap.mem_iff_isSome, Option.isSome_iff_exists, List.mem_iff_getElem?]
  exact exists_congr fun i => h a i

/-- Appending a new element at the next position. -/
theorem push (h : Indexes positions xs) {x : α} (hx : x ∉ xs) :
    Indexes (positions.set x xs.length) (xs ++ [x]) := by
  intro a i
  rw [OrderedMap.get?_set]
  split_ifs with ha
  · subst ha
    constructor
    · intro hi
      rw [← Option.some.inj hi, List.getElem?_concat_length]
    · intro hi
      rcases lt_trichotomy i xs.length with hlt | heq | hgt
      · rw [List.getElem?_append_left hlt] at hi
        exact absurd (List.mem_of_getElem? hi) hx
      · rw [heq]
      · rw [List.getElem?_eq_none (by rw [List.length_append]; exact hgt)] at hi
        exact absurd hi (by simp)
  · rw [h a i]
    rcases lt_trichotomy i xs.length with hlt | heq | hgt
    · rw [List.getElem?_append_left hlt]
    · rw [heq, List.getElem?_concat_length, List.getElem?_eq_none le_rfl]
      simp [Ne.symm ha]
    · rw [List.getElem?_eq_none hgt.le, List.getElem?_eq_none (by rw [List.length_append]; exact hgt)]

end Indexes

/-! ## Exchanging two elements -/

section Exchange

variable {positions : OrderedMap α ℕ} {xs : List α} {i j : ℕ} {x y : α}

omit [DecidableEq α] in
theorem getElem?_exchange (hi : xs[i]? = some x) (hj : xs[j]? = some y) (k : ℕ) :
    ((xs.set j x).set i y)[k]? =
      if k = i then some y else if k = j then some x else xs[k]? := by
  have hli : i < xs.length := (List.getElem?_eq_some_iff.mp hi).1
  have hlj : j < xs.length := (List.getElem?_eq_some_iff.mp hj).1
  rw [List.getElem?_set, List.getElem?_set]
  by_cases hki : k = i
  · subst hki
    simp [hli]
  · by_cases hkj : k = j
    · subst hkj
      simp [hki, Ne.symm hki, hlj]
    · simp [hki, hkj, Ne.symm hki, Ne.symm hkj]

omit [DecidableEq α] in
theorem perm_exchange (hi : xs[i]? = some x) (hj : xs[j]? = some y) :
    ((xs.set j x).set i y).Perm xs := by
  obtain ⟨hli, rfl⟩ := List.getElem?_eq_some_iff.mp hi
  obtain ⟨hlj, rfl⟩ := List.getElem?_eq_some_iff.mp hj
  exact List.set_set_perm hlj hli

omit [DecidableEq α] in
/-- An exchange with a later position leaves the earlier ones alone. -/
theorem take_exchange (hi : xs[i]? = some x) (hj : xs[j]? = some y) (hij : i ≤ j) :
    ((xs.set j x).set i y).take (i + 1) = xs.take i ++ [y] := by
  have hli : i < xs.length := (List.getElem?_eq_some_iff.mp hi).1
  have hget : ((xs.set j x).set i y)[i]? = some y := by
    rw [getElem?_exchange hi hj, if_pos rfl]
  rw [List.take_add_one, hget, Option.toList_some, List.take_set_of_le le_rfl,
    List.take_set_of_le hij]

/-- Exchanging two elements and storing both new positions. -/
theorem Indexes.exchange (h : Indexes positions xs) (hi : xs[i]? = some x)
    (hj : xs[j]? = some y) :
    Indexes ((positions.set x j).set y i) ((xs.set j x).set i y) := by
  have hnd := h.nodup
  intro a k
  rw [getElem?_exchange hi hj, OrderedMap.get?_set, OrderedMap.get?_set]
  have hx : ∀ k, xs[k]? = some x ↔ i = k := fun k =>
    ⟨fun hk => Option.some.inj (((h x i).mpr hi).symm.trans ((h x k).mpr hk)), fun hk => hk ▸ hi⟩
  have hy : ∀ k, xs[k]? = some y ↔ j = k := fun k =>
    ⟨fun hk => Option.some.inj (((h y j).mpr hj).symm.trans ((h y k).mpr hk)), fun hk => hk ▸ hj⟩
  have ha := h a k
  by_cases hay : a = y
  · subst hay
    grind
  · by_cases hax : a = x
    · subst hax
      grind
    · grind

end Exchange

/-! ## Removal by the last element -/

section SwapRemove

variable {positions : OrderedMap α ℕ} {xs : List α} {i : ℕ} {x l : α}

/-- Removing the last element. -/
theorem Indexes.pop (h : Indexes positions xs) (hl : xs.getLast? = some l) :
    Indexes (positions.delete l) xs.dropLast := by
  have hlast : xs[xs.length - 1]? = some l := by rw [← List.getLast?_eq_getElem?, hl]
  have hget : ∀ k, xs.dropLast[k]? = if k < xs.length - 1 then xs[k]? else none :=
    fun k => List.getElem?_dropLast
  intro a k
  rw [OrderedMap.get?_delete, hget]
  have ha := h a k
  have hla := h l (xs.length - 1)
  have hlk := h l k
  have hlen : xs[k]? ≠ none → k < xs.length := fun hk => by
    by_contra hge
    exact hk (List.getElem?_eq_none (not_lt.mp hge))
  grind

/-- Removing an earlier element: the last one takes its place. -/
theorem Indexes.swapRemove (h : Indexes positions xs) (hi : positions.get? x = some i)
    (hl : xs.getLast? = some l) (hne : l ≠ x) :
    Indexes ((positions.set l i).delete x) (xs.dropLast.set i l) := by
  have hlast : xs[xs.length - 1]? = some l := by rw [← List.getLast?_eq_getElem?, hl]
  have hxi : xs[i]? = some x := (h x i).mp hi
  have hget : ∀ k, xs.dropLast[k]? = if k < xs.length - 1 then xs[k]? else none :=
    fun k => List.getElem?_dropLast
  have hil : i < xs.length - 1 := by
    have hlt : i < xs.length := (List.getElem?_eq_some_iff.mp hxi).1
    have : i ≠ xs.length - 1 := by
      rintro rfl
      exact hne (Option.some.inj (hlast.symm.trans hxi))
    omega
  intro a k
  rw [OrderedMap.get?_delete, OrderedMap.get?_set, List.getElem?_set, List.length_dropLast, hget]
  have ha := h a k
  have hlk := h l k
  have hxk := h x k
  have hll := h l (xs.length - 1)
  have hlen : xs[k]? ≠ none → k < xs.length := fun hk => by
    by_contra hge
    exact hk (List.getElem?_eq_none (not_lt.mp hge))
  grind

end SwapRemove

end OpenStreamGrid
