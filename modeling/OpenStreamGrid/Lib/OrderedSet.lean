import Mathlib.Data.List.Nodup
import Mathlib.Data.List.Perm.Basic
import Mathlib.Data.Finset.Card

/-!
# Insertion-ordered sets

A set that iterates in the order its elements were first inserted: inserting a
present element changes nothing, erasing and re-inserting moves it to the end.
The list of elements is the representation and duplicate-freeness is carried by
the type, so equality of such sets is equality of iteration orders; equality as
plain sets is `OrderedSet.SameElems`.
-/

namespace OpenStreamGrid

/-- A finite set together with the order its elements were inserted in. -/
@[ext] structure OrderedSet (α : Type*) where
  toList : List α
  nodup : toList.Nodup
deriving DecidableEq

namespace OrderedSet

variable {α : Type*}

instance : Membership α (OrderedSet α) := ⟨fun s a => a ∈ s.toList⟩

instance : EmptyCollection (OrderedSet α) := ⟨⟨[], List.nodup_nil⟩⟩

instance [DecidableEq α] (a : α) (s : OrderedSet α) : Decidable (a ∈ s) :=
  inferInstanceAs (Decidable (a ∈ s.toList))

def size (s : OrderedSet α) : ℕ := s.toList.length

@[simp] theorem mem_toList {a : α} {s : OrderedSet α} : a ∈ s.toList ↔ a ∈ s :=
  Iff.rfl

@[simp] theorem not_mem_empty (a : α) : a ∉ (∅ : OrderedSet α) := List.not_mem_nil

@[simp] theorem toList_empty : (∅ : OrderedSet α).toList = [] := rfl

@[simp] theorem size_empty : (∅ : OrderedSet α).size = 0 := rfl

theorem size_pos_of_mem {s : OrderedSet α} {a : α} (h : a ∈ s) : 0 < s.size :=
  List.length_pos_of_mem h

/-- Subsets are no larger. -/
theorem size_le_of_subset {s : OrderedSet α} {xs : List α} (h : ∀ a ∈ s, a ∈ xs) :
    s.size ≤ xs.length :=
  (List.subperm_of_subset s.nodup h).length_le

/-- The same elements, in whatever order. -/
def SameElems (s t : OrderedSet α) : Prop := ∀ a, a ∈ s ↔ a ∈ t

theorem SameElems.perm {s t : OrderedSet α} (h : SameElems s t) :
    s.toList.Perm t.toList :=
  (List.perm_ext_iff_of_nodup s.nodup t.nodup).mpr h

variable [DecidableEq α]

/-- Insertion: a present element keeps its place, a new one goes last. -/
def insert (s : OrderedSet α) (a : α) : OrderedSet α :=
  if h : a ∈ s.toList then s
  else ⟨s.toList ++ [a], by
    rw [List.nodup_append]
    exact ⟨s.nodup, List.nodup_singleton a, by
      intro x hx y hy hxy
      rw [List.mem_singleton.mp hy] at hxy
      exact h (hxy ▸ hx)⟩⟩

def erase (s : OrderedSet α) (a : α) : OrderedSet α :=
  ⟨s.toList.erase a, s.nodup.erase a⟩

/-- Insert a list of elements, in order. -/
def insertAll (s : OrderedSet α) (xs : List α) : OrderedSet α :=
  xs.foldl insert s

/-- Erase a list of elements, in order. -/
def eraseAll (s : OrderedSet α) (xs : List α) : OrderedSet α :=
  xs.foldl erase s

/-- The set of a list's elements, each at its first occurrence. -/
def ofList (xs : List α) : OrderedSet α := insertAll ∅ xs

/-! ## Membership -/

@[simp] theorem mem_insert {s : OrderedSet α} {a b : α} :
    b ∈ s.insert a ↔ b ∈ s ∨ b = a := by
  unfold insert
  split_ifs with h
  · constructor
    · exact Or.inl
    · rintro (hb | rfl)
      · exact hb
      · exact h
  · change b ∈ s.toList ++ [a] ↔ _
    simp

@[simp] theorem mem_erase {s : OrderedSet α} {a b : α} :
    b ∈ s.erase a ↔ b ∈ s ∧ b ≠ a := by
  change b ∈ s.toList.erase a ↔ _
  rw [s.nodup.mem_erase_iff, mem_toList]
  exact and_comm

@[simp] theorem mem_insertAll {xs : List α} {b : α} : ∀ {s : OrderedSet α},
    b ∈ s.insertAll xs ↔ b ∈ s ∨ b ∈ xs := by
  induction xs with
  | nil => intro s; simp [insertAll]
  | cons x xs ih =>
      intro s
      change b ∈ (s.insert x).insertAll xs ↔ _
      rw [ih, mem_insert, List.mem_cons, or_assoc]

@[simp] theorem mem_eraseAll {xs : List α} {b : α} : ∀ {s : OrderedSet α},
    b ∈ s.eraseAll xs ↔ b ∈ s ∧ b ∉ xs := by
  induction xs with
  | nil => intro s; simp [eraseAll]
  | cons x xs ih =>
      intro s
      change b ∈ (s.erase x).eraseAll xs ↔ _
      rw [ih, mem_erase, List.mem_cons, not_or, and_assoc]

@[simp] theorem mem_ofList {xs : List α} {b : α} : b ∈ ofList xs ↔ b ∈ xs := by
  simp [ofList]

/-! ## Iteration order -/

theorem toList_insert_of_mem {s : OrderedSet α} {a : α} (h : a ∈ s) :
    (s.insert a).toList = s.toList := by
  have h' : a ∈ s.toList := h
  simp only [insert, dif_pos h']

theorem toList_insert_of_not_mem {s : OrderedSet α} {a : α} (h : a ∉ s) :
    (s.insert a).toList = s.toList ++ [a] := by
  have h' : a ∉ s.toList := h
  simp only [insert, dif_neg h']

@[simp] theorem toList_erase (s : OrderedSet α) (a : α) :
    (s.erase a).toList = s.toList.erase a := rfl

theorem insert_of_mem {s : OrderedSet α} {a : α} (h : a ∈ s) : s.insert a = s :=
  OrderedSet.ext (toList_insert_of_mem h)

theorem erase_of_not_mem {s : OrderedSet α} {a : α} (h : a ∉ s) : s.erase a = s :=
  OrderedSet.ext (List.erase_of_not_mem h)

@[simp] theorem insertAll_append (s : OrderedSet α) (xs ys : List α) :
    s.insertAll (xs ++ ys) = (s.insertAll xs).insertAll ys :=
  List.foldl_append

/-- Inserting new, pairwise distinct elements appends them. -/
theorem toList_insertAll_of_nodup {xs : List α} : ∀ {s : OrderedSet α},
    xs.Nodup → (∀ x ∈ xs, x ∉ s) → (s.insertAll xs).toList = s.toList ++ xs := by
  induction xs with
  | nil => intro s _ _; simp [insertAll]
  | cons x xs ih =>
      intro s hnd hnew
      obtain ⟨hx, hxs⟩ := List.nodup_cons.mp hnd
      change ((s.insert x).insertAll xs).toList = _
      rw [ih hxs, toList_insert_of_not_mem (hnew x List.mem_cons_self)]
      · simp
      · intro y hy hmem
        rcases mem_insert.mp hmem with h | rfl
        · exact hnew y (List.mem_cons_of_mem _ hy) h
        · exact hx hy

/-- Inserting a list appends its new elements, each at its first occurrence. -/
theorem toList_insertAll {xs : List α} : ∀ {s : OrderedSet α},
    (s.insertAll xs).toList = s.toList ++ (xs.filter fun a => decide (a ∉ s)).eraseDups := by
  induction xs with
  | nil => intro s; simp [insertAll]
  | cons x xs ih =>
      intro s
      change ((s.insert x).insertAll xs).toList = _
      rw [ih]
      by_cases hx : x ∈ s
      · rw [insert_of_mem hx, List.filter_cons_of_neg (by simpa using hx)]
      · have hrest : (xs.filter fun a => decide (a ∉ s.insert x))
            = (xs.filter fun a => decide (a ∉ s)).filter fun a => !a == x := by
          rw [List.filter_filter]
          refine List.filter_congr fun a _ => ?_
          by_cases ha : a = x
          · simp [ha]
          · simp [ha]
        rw [toList_insert_of_not_mem hx, List.filter_cons_of_pos (by simpa using hx),
          List.eraseDups_cons, hrest, List.append_assoc]
        rfl

theorem toList_ofList (xs : List α) : (ofList xs).toList = xs.eraseDups := by
  unfold ofList
  rw [toList_insertAll]
  simp

/-- A duplicate-free list is its own set. -/
theorem toList_ofList_of_nodup {xs : List α} (h : xs.Nodup) :
    (ofList xs).toList = xs := by
  have := toList_insertAll_of_nodup h (fun x _ => not_mem_empty x)
  simpa [ofList] using this

/-- Erasing keeps the order of what remains. -/
theorem toList_eraseAll {xs : List α} : ∀ {s : OrderedSet α},
    (s.eraseAll xs).toList = s.toList.filter (fun a => decide (a ∉ xs)) := by
  induction xs with
  | nil => intro s; simp [eraseAll]
  | cons x xs ih =>
      intro s
      change ((s.erase x).eraseAll xs).toList = _
      rw [ih, toList_erase, s.nodup.erase_eq_filter, List.filter_filter]
      refine List.filter_congr fun a _ => ?_
      by_cases ha : a = x
      · simp [ha]
      · simp [ha, bne_iff_ne]

theorem ofList_append (xs ys : List α) :
    ofList (xs ++ ys) = (ofList xs).insertAll ys := insertAll_append _ _ _

/-! ## Size -/

theorem size_insert_of_not_mem {s : OrderedSet α} {a : α} (h : a ∉ s) :
    (s.insert a).size = s.size + 1 := by
  unfold size
  rw [toList_insert_of_not_mem h, List.length_append, List.length_singleton]

theorem size_erase_of_mem {s : OrderedSet α} {a : α} (h : a ∈ s) :
    (s.erase a).size + 1 = s.size := by
  unfold size
  rw [toList_erase, List.length_erase_of_mem h]
  have := List.length_pos_of_mem (mem_toList.mpr h)
  omega

/-! ## Repetitions -/

/-- One element of a list walked through: what was seen before it, and what was seen twice. -/
def noteRepeated (seenAndRepeated : OrderedSet α × OrderedSet α) (a : α) :
    OrderedSet α × OrderedSet α :=
  (seenAndRepeated.1.insert a,
    if a ∈ seenAndRepeated.1 then seenAndRepeated.2.insert a else seenAndRepeated.2)

/-- The elements a list holds more than once, in the order of their first repetition. -/
def repeated (xs : List α) : OrderedSet α := (xs.foldl noteRepeated (∅, ∅)).2

theorem foldl_noteRepeated (xs : List α) : ∀ seen twice : OrderedSet α,
    ((xs.foldl noteRepeated (seen, twice)).2.toList = [] ↔
      twice.toList = [] ∧ xs.Nodup ∧ ∀ x ∈ xs, x ∉ seen) := by
  induction xs with
  | nil => intro seen twice; simp
  | cons x xs ih =>
      intro seen twice
      show (xs.foldl noteRepeated (seen.insert x,
        if x ∈ seen then twice.insert x else twice)).2.toList = [] ↔ _
      rw [ih, List.nodup_cons]
      split_ifs with hx
      · have hne : (twice.insert x).toList ≠ [] :=
          List.ne_nil_of_mem (mem_toList.mpr (mem_insert.mpr (Or.inr rfl)))
        constructor
        · rintro ⟨h, -⟩
          exact absurd h hne
        · rintro ⟨-, -, h⟩
          exact absurd hx (h x List.mem_cons_self)
      · constructor
        · rintro ⟨htwice, hnodup, hseen⟩
          refine ⟨htwice, ⟨?_, hnodup⟩, ?_⟩
          · intro hmem
            exact hseen x hmem (mem_insert.mpr (Or.inr rfl))
          · intro y hy
            rcases List.mem_cons.mp hy with rfl | hy
            · exact hx
            · exact fun h => hseen y hy (mem_insert.mpr (Or.inl h))
        · rintro ⟨htwice, ⟨hnew, hnodup⟩, hseen⟩
          refine ⟨htwice, hnodup, fun y hy => ?_⟩
          rw [mem_insert]
          rintro (h | rfl)
          · exact hseen y (List.mem_cons_of_mem _ hy) h
          · exact hnew hy

theorem repeated_eq_nil_iff {xs : List α} : (repeated xs).toList = [] ↔ xs.Nodup := by
  rw [repeated, foldl_noteRepeated]
  simp

end OrderedSet

end OpenStreamGrid
