import Mathlib.Data.Set.Basic

/-!
# Overwrites of a set

An overwrite says of each element that it is put in, taken out, or left as it
is. Applying overwrites one after another is applying their composite, in which
the later word on an element counts. A set is *settled* by an overwrite that
would not change it: this is what a receiver may rely on when the overwrite has
already been carried out elsewhere.
-/

namespace OpenStreamGrid

/-- What becomes of each element: in, out, or as it was. -/
abbrev Overwrite (α : Type*) := α → Option Bool

namespace Overwrite

variable {α : Type*}

/-- Leaves every element as it was. -/
def keep : Overwrite α := fun _ => none

/-- `o₁`, then `o₂`. -/
def andThen (o₁ o₂ : Overwrite α) : Overwrite α := fun x => (o₂ x).or (o₁ x)

def apply (o : Overwrite α) (s : Set α) : Set α := {x | (o x).elim (x ∈ s) (· = true)}

/-- The removals of a delta, then its additions. -/
def delta [DecidableEq α] (added removed : List α) : Overwrite α := fun x =>
  if x ∈ added then some true else if x ∈ removed then some false else none

/-- Exactly the listed elements. -/
def replace [DecidableEq α] (elements : List α) : Overwrite α := fun x =>
  some (decide (x ∈ elements))

/-! ## Application -/

theorem mem_apply_of_some {o : Overwrite α} {s : Set α} {x : α} {b : Bool} (h : o x = some b) :
    x ∈ o.apply s ↔ b = true := by
  simp [apply, h]

theorem mem_apply_of_none {o : Overwrite α} {s : Set α} {x : α} (h : o x = none) :
    x ∈ o.apply s ↔ x ∈ s := by
  simp [apply, h]

@[simp] theorem apply_keep (s : Set α) : (keep : Overwrite α).apply s = s := by
  ext x
  exact mem_apply_of_none rfl

@[simp] theorem apply_andThen (o₁ o₂ : Overwrite α) (s : Set α) :
    (o₁.andThen o₂).apply s = o₂.apply (o₁.apply s) := by
  ext x
  cases h : o₂ x with
  | none => simp [apply, andThen, h]
  | some b => simp [apply, andThen, h]

@[simp] theorem mem_apply_delta [DecidableEq α] {added removed : List α} {s : Set α} {x : α} :
    x ∈ (delta added removed).apply s ↔ x ∈ s ∧ x ∉ removed ∨ x ∈ added := by
  by_cases ha : x ∈ added
  · simp [apply, delta, ha]
  · by_cases hr : x ∈ removed
    · simp [apply, delta, ha, hr]
    · simp [apply, delta, ha, hr]

@[simp] theorem mem_apply_replace [DecidableEq α] {elements : List α} {s : Set α} {x : α} :
    x ∈ (replace elements).apply s ↔ x ∈ elements := by
  simp [apply, replace]

/-! ## Composition -/

@[simp] theorem keep_andThen (o : Overwrite α) : keep.andThen o = o := by
  funext x
  simp [andThen, keep]

@[simp] theorem andThen_keep (o : Overwrite α) : o.andThen keep = o := by
  funext x
  simp [andThen, keep]

theorem andThen_assoc (o₁ o₂ o₃ : Overwrite α) :
    (o₁.andThen o₂).andThen o₃ = o₁.andThen (o₂.andThen o₃) := by
  funext x
  simp [andThen, Option.or_assoc]

/-- Saying the same thing twice. -/
theorem andThen_self (o : Overwrite α) : o.andThen o = o := by
  funext x
  simp [andThen]

/-- What was said before is said again by the whole. -/
theorem andThen_andThen_self (o₁ o₂ : Overwrite α) :
    o₁.andThen (o₁.andThen o₂) = o₁.andThen o₂ := by
  rw [← andThen_assoc, andThen_self]

theorem andThen_eq_none {o₁ o₂ : Overwrite α} {x : α} :
    o₁.andThen o₂ x = none ↔ o₁ x = none ∧ o₂ x = none := by
  unfold andThen
  rw [Option.or_eq_none_iff, and_comm]

/-! ## Settled sets -/

/-- The overwrite has nothing left to do. -/
def Settled (o : Overwrite α) (s : Set α) : Prop := ∀ x b, o x = some b → (x ∈ s ↔ b = true)

theorem settled_keep (s : Set α) : (keep : Overwrite α).Settled s :=
  fun _ _ h => nomatch h

/-- Carrying out `o₂` on a set settled by `o₁` settles it for both in turn. -/
theorem Settled.andThen {o₁ o₂ : Overwrite α} {s : Set α} (h : o₁.Settled s) :
    (o₁.andThen o₂).Settled (o₂.apply s) := by
  intro x b hx
  cases h₂ : o₂ x with
  | some b' =>
      have : b' = b := by simpa [Overwrite.andThen, h₂] using hx
      rw [mem_apply_of_some h₂, this]
  | none =>
      have : o₁ x = some b := by simpa [Overwrite.andThen, h₂] using hx
      rw [mem_apply_of_none h₂]
      exact h x b this

theorem Settled.of_andThen {o₁ o₂ : Overwrite α} {s : Set α} (h : (o₁.andThen o₂).Settled s) :
    o₂.Settled s := fun x b hx => h x b (by simp [Overwrite.andThen, hx])

/-- The overwrites never contradict each other. -/
def Agree (o₁ o₂ : Overwrite α) : Prop := ∀ x b b', o₁ x = some b → o₂ x = some b' → b = b'

/-- A settled set stays settled if what is carried out next agrees. -/
theorem Settled.apply_of_agree {o₁ o₂ : Overwrite α} {s : Set α} (h : o₁.Settled s)
    (hagree : o₁.Agree o₂) : o₁.Settled (o₂.apply s) := by
  intro x b hx
  cases h₂ : o₂ x with
  | some b' => rw [mem_apply_of_some h₂, hagree x b b' hx h₂]
  | none =>
      rw [mem_apply_of_none h₂]
      exact h x b hx

/-- **Catching up with the first of two.** A copy that agrees with a settled set
where both overwrites are silent agrees with it where the second one is, once
the first is applied. -/
theorem Settled.mem_apply_iff {o₁ o₂ : Overwrite α} {s copy : Set α}
    (h : (o₁.andThen o₂).Settled s)
    (hcopy : ∀ x, o₁.andThen o₂ x = none → (x ∈ copy ↔ x ∈ s)) {x : α} (hx : o₂ x = none) :
    x ∈ o₁.apply copy ↔ x ∈ s := by
  cases h₁ : o₁ x with
  | some b =>
      rw [mem_apply_of_some h₁]
      exact (h x b (by simp [Overwrite.andThen, hx, h₁])).symm
  | none =>
      rw [mem_apply_of_none h₁]
      exact hcopy x (andThen_eq_none.mpr ⟨h₁, hx⟩)

end Overwrite

end OpenStreamGrid
