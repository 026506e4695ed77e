import Mathlib.Data.List.Infix
import Mathlib.Algebra.BigOperators.Group.List.Basic
import Mathlib.Algebra.Ring.Nat
import Mathlib.Tactic.SplitIfs
import OpenStreamGrid.Lib.OrderedMap

/-!
# Least-recently-used lists

What a least-recently-used cache with a limit on its weight stands for: the list
of its entries, the one used last in front. A use moves an entry to the front,
and an insert keeps the entries from the front on that fit together.
-/

namespace OpenStreamGrid

variable {κ α : Type*}

/-- The entries from the front on whose weights fit together. -/
def keepWithin (weight : α → ℕ) : ℕ → List α → List α
  | _, [] => []
  | limit, x :: xs =>
      if weight x ≤ limit then x :: keepWithin weight (limit - weight x) xs else []

def totalWeight (weight : α → ℕ) (xs : List α) : ℕ := (xs.map weight).sum

section KeepWithin

variable {weight : α → ℕ} {limit : ℕ} {xs ys : List α} {x : α}

@[simp] theorem totalWeight_nil : totalWeight weight [] = 0 := rfl

@[simp] theorem totalWeight_cons :
    totalWeight weight (x :: xs) = weight x + totalWeight weight xs := List.sum_cons

theorem totalWeight_append :
    totalWeight weight (xs ++ ys) = totalWeight weight xs + totalWeight weight ys := by
  unfold totalWeight
  rw [List.map_append, List.sum_append]

theorem keepWithin_isPrefix (weight : α → ℕ) (limit : ℕ) (xs : List α) :
    keepWithin weight limit xs <+: xs := by
  induction xs generalizing limit with
  | nil => exact List.prefix_rfl
  | cons x xs ih =>
      unfold keepWithin
      split_ifs
      · exact (List.prefix_cons_inj x).mpr (ih _)
      · exact List.nil_prefix

theorem totalWeight_keepWithin_le (weight : α → ℕ) (limit : ℕ) (xs : List α) :
    totalWeight weight (keepWithin weight limit xs) ≤ limit := by
  induction xs generalizing limit with
  | nil => exact Nat.zero_le _
  | cons x xs ih =>
      unfold keepWithin
      split_ifs with hx
      · rw [totalWeight_cons]
        have hrest := ih (limit - weight x)
        omega
      · exact Nat.zero_le _

/-- No longer prefix fits. -/
theorem prefix_keepWithin (hinitial : ys <+: xs) (hfits : totalWeight weight ys ≤ limit) :
    ys <+: keepWithin weight limit xs := by
  induction xs generalizing ys limit with
  | nil => exact hinitial
  | cons x xs ih =>
      rcases List.prefix_cons_iff.mp hinitial with rfl | ⟨rest, rfl, hrest⟩
      · exact List.nil_prefix
      · rw [totalWeight_cons] at hfits
        unfold keepWithin
        rw [if_pos (by omega)]
        exact (List.prefix_cons_inj x).mpr (ih hrest (by omega))

theorem keepWithin_of_le (h : totalWeight weight xs ≤ limit) : keepWithin weight limit xs = xs :=
  (keepWithin_isPrefix weight limit xs).eq_of_length_le
    (prefix_keepWithin List.prefix_rfl h).length_le

/-- Where the entries do not fit, the last one goes. -/
theorem keepWithin_concat (h : limit < totalWeight weight (xs ++ [x])) :
    keepWithin weight limit (xs ++ [x]) = keepWithin weight limit xs := by
  have hkept : keepWithin weight limit (xs ++ [x]) <+: xs := by
    rcases List.prefix_concat_iff.mp (keepWithin_isPrefix weight limit (xs ++ [x])) with hall | hsome
    · have hle := totalWeight_keepWithin_le weight limit (xs ++ [x])
      rw [hall] at hle
      exact absurd h (Nat.not_lt.mpr hle)
    · exact hsome
  have hle := prefix_keepWithin hkept (totalWeight_keepWithin_le weight limit (xs ++ [x]))
  have hge := prefix_keepWithin
    ((keepWithin_isPrefix weight limit xs).trans (List.prefix_append xs [x]))
    (totalWeight_keepWithin_le weight limit xs)
  exact hle.eq_of_length_le hge.length_le

theorem keepWithin_map {β : Type*} (f : β → α) (limit : ℕ) (xs : List β) :
    keepWithin weight limit (xs.map f) = (keepWithin (fun x => weight (f x)) limit xs).map f := by
  induction xs generalizing limit with
  | nil => rfl
  | cons x xs ih =>
      rw [List.map_cons, keepWithin, keepWithin, ih]
      split_ifs <;> rfl

end KeepWithin

/-! ## The list of a cache -/

/-- One entry for each key, and together they fit. -/
structure LruList (κ α : Type*) (weight : α → ℕ) (limit : ℕ) where
  entries : List (κ × α)
  nodupKeys : (entries.map Prod.fst).Nodup
  fits : totalWeight (fun e => weight e.2) entries ≤ limit

namespace LruList

variable [DecidableEq κ] {weight : α → ℕ} {limit : ℕ}

def without (key : κ) (entries : List (κ × α)) : List (κ × α) :=
  entries.filter fun e => decide (e.1 ≠ key)

/-- An entry in front of the others. -/
def inFront (key : κ) (value : α) (entries : List (κ × α)) : List (κ × α) :=
  (key, value) :: without key entries

theorem nodupKeys_inFront {key : κ} {value : α} {entries : List (κ × α)}
    (h : (entries.map Prod.fst).Nodup) : ((inFront key value entries).map Prod.fst).Nodup := by
  apply List.nodup_cons.mpr
  refine ⟨fun hmem => ?_, (List.filter_sublist.map Prod.fst).nodup h⟩
  obtain ⟨e, he, hkey⟩ := List.mem_map.mp hmem
  exact of_decide_eq_true (List.mem_filter.mp he).2 hkey

/-- Moving an entry to the front keeps what the entries weigh together. -/
theorem totalWeight_inFront {key : κ} {value : α} {entries : List (κ × α)}
    (hnodup : (entries.map Prod.fst).Nodup) (hmem : (key, value) ∈ entries) :
    totalWeight (fun e => weight e.2) (inFront key value entries) =
      totalWeight (fun e => weight e.2) entries := by
  induction entries with
  | nil => cases hmem
  | cons e entries ih =>
      obtain ⟨hfresh, hrest⟩ := List.nodup_cons.mp hnodup
      rcases List.mem_cons.mp hmem with rfl | hlater
      · have hall : without key entries = entries := by
          apply List.filter_eq_self.mpr
          intro e he
          apply decide_eq_true
          intro hkey
          exact hfresh (List.mem_map.mpr ⟨e, he, hkey⟩)
        show totalWeight _ (_ :: without key ((key, value) :: entries)) = _
        rw [without, List.filter_cons_of_neg (by simp), ← without, hall]
      · have hne : e.1 ≠ key := by
          intro hkey
          exact hfresh (List.mem_map.mpr ⟨(key, value), hlater, hkey.symm⟩)
        have hstays : without key (e :: entries) = e :: without key entries :=
          List.filter_cons_of_pos (decide_eq_true hne)
        have htail := ih hrest hlater
        rw [inFront, totalWeight_cons] at htail ⊢
        rw [hstays, totalWeight_cons, totalWeight_cons]
        omega

def empty : LruList κ α weight limit := ⟨[], List.nodup_nil, Nat.zero_le _⟩

def find (s : LruList κ α weight limit) (key : κ) : Option α := OrderedMap.find key s.entries

/-- A key that is used moves to the front. -/
def use (s : LruList κ α weight limit) (key : κ) : LruList κ α weight limit :=
  match h : s.find key with
  | none => s
  | some value => ⟨inFront key value s.entries, nodupKeys_inFront s.nodupKeys, by
      rw [totalWeight_inFront s.nodupKeys ((OrderedMap.find_eq_some_iff s.nodupKeys).mp h)]
      exact s.fits⟩

/-- A new entry in front, and of the others the ones used last, as far as they fit. -/
def insert (s : LruList κ α weight limit) (key : κ) (value : α) : LruList κ α weight limit where
  entries := keepWithin (fun e => weight e.2) limit (inFront key value s.entries)
  nodupKeys := ((keepWithin_isPrefix _ _ _).sublist.map Prod.fst).nodup
    (nodupKeys_inFront s.nodupKeys)
  fits := totalWeight_keepWithin_le _ _ _

theorem entries_use_of_none {s : LruList κ α weight limit} {key : κ} (h : s.find key = none) :
    (s.use key).entries = s.entries := by
  unfold use
  split
  · rfl
  · rename_i value hsome
    rw [h] at hsome
    cases hsome

theorem entries_use_of_some {s : LruList κ α weight limit} {key : κ} {value : α}
    (h : s.find key = some value) : (s.use key).entries = inFront key value s.entries := by
  unfold use
  split
  · rename_i hnone
    rw [h] at hnone
    cases hnone
  · rename_i value' hsome
    rw [h] at hsome
    rw [Option.some.inj hsome]

end LruList

end OpenStreamGrid
