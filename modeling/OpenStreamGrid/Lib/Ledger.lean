import Mathlib.Algebra.BigOperators.Group.Finset.Piecewise
import Mathlib.Algebra.BigOperators.Group.List.Basic

/-!
# Ledgers of closed and live accounts

Accounts come in groups. A member posts its current balance to its live
account; closing the account moves the balance to the group's closed sum, where
it stays. The ledger remembers whose balances were closed, so that what each
member contributes to its group's total can be stated: closed balances plus the
live one. Nothing is counted twice as long as nobody posts after a closing that
moved something.
-/

namespace OpenStreamGrid

/-- Live balances, closed balances with their owner, and what was last posted. -/
structure Ledger (β ι M : Type*) where
  live : β → ι → Option M
  closed : List (β × ι × M)
  latest : β → ι → M

namespace Ledger

variable {β ι M : Type*} [DecidableEq β] [DecidableEq ι]

/-- Set the live balance of one account. -/
def setLive (L : Ledger β ι M) (b : β) (p : ι) (v : Option M) : Ledger β ι M :=
  { L with live := fun b' p' => if b' = b ∧ p' = p then v else L.live b' p' }

/-- Post the current balance of an account. -/
def post (L : Ledger β ι M) (b : β) (p : ι) (v : M) : Ledger β ι M :=
  { L.setLive b p (some v) with
    latest := fun b' p' => if b' = b ∧ p' = p then v else L.latest b' p' }

/-- Close an account. -/
def close (L : Ledger β ι M) (b : β) (p : ι) : Ledger β ι M :=
  match L.live b p with
  | none => L
  | some v => { L.setLive b p none with closed := L.closed ++ [(b, p, v)] }

theorem close_latest (L : Ledger β ι M) (b : β) (p : ι) : (L.close b p).latest = L.latest := by
  unfold close
  cases L.live b p <;> rfl

theorem live_close (L : Ledger β ι M) (b b' : β) (p p' : ι) :
    (L.close b p).live b' p' = if b' = b ∧ p' = p then none else L.live b' p' := by
  unfold close
  cases hv : L.live b p with
  | none =>
      by_cases h : b' = b ∧ p' = p
      · simp [h.1, h.2, hv]
      · simp [h]
  | some v => rfl

variable [AddCommMonoid M]

/-- No account yet. -/
def empty : Ledger β ι M := ⟨fun _ _ => none, [], fun _ _ => 0⟩

/-- The balances of a member that were closed. -/
def closedOf (L : Ledger β ι M) (b : β) (p : ι) : M :=
  ((L.closed.filter fun e => decide (e.1 = b ∧ e.2.1 = p)).map fun e => e.2.2).sum

/-- The closed balances of a group. -/
def closedTotal (L : Ledger β ι M) (b : β) : M :=
  ((L.closed.filter fun e => decide (e.1 = b)).map fun e => e.2.2).sum

/-- What a member contributes to its group's total. -/
def contribution (L : Ledger β ι M) (b : β) (p : ι) : M :=
  L.closedOf b p + (L.live b p).getD 0

/-- Open an account at zero, or find it open. -/
def openAccount (L : Ledger β ι M) (b : β) (p : ι) : Ledger β ι M :=
  L.setLive b p (some ((L.live b p).getD 0))

/-- Everyone contributes what was posted last. -/
def Counted (L : Ledger β ι M) : Prop := ∀ b p, L.contribution b p = L.latest b p

/-! ## The operations and the contributions -/

theorem contribution_empty (b : β) (p : ι) : (empty : Ledger β ι M).contribution b p = 0 := by
  simp [contribution, closedOf, empty]

theorem contribution_openAccount (L : Ledger β ι M) (b b' : β) (p p' : ι) :
    (L.openAccount b p).contribution b' p' = L.contribution b' p' := by
  unfold contribution openAccount setLive closedOf
  by_cases h : b' = b ∧ p' = p
  · simp [h.1, h.2]
  · simp [h]

theorem contribution_post (L : Ledger β ι M) (b b' : β) (p p' : ι) (v : M) :
    (L.post b p v).contribution b' p'
      = if b' = b ∧ p' = p then L.closedOf b p + v else L.contribution b' p' := by
  unfold contribution post setLive closedOf
  by_cases h : b' = b ∧ p' = p
  · simp [h.1, h.2]
  · simp [h]

/-- Closing moves a balance and changes no contribution. -/
theorem contribution_close (L : Ledger β ι M) (b b' : β) (p p' : ι) :
    (L.close b p).contribution b' p' = L.contribution b' p' := by
  unfold close
  cases hv : L.live b p with
  | none => rfl
  | some v =>
      unfold contribution setLive closedOf
      by_cases h : b' = b ∧ p' = p
      · obtain ⟨rfl, rfl⟩ := h
        simp [hv, List.filter_append]
      · have h' : ¬ (b = b' ∧ p = p') := fun e => h ⟨e.1.symm, e.2.symm⟩
        simp [h, h', List.filter_append]

theorem counted_empty : (empty : Ledger β ι M).Counted :=
  fun b p => contribution_empty b p

theorem Counted.openAccount {L : Ledger β ι M} (h : L.Counted) (b : β) (p : ι) :
    (L.openAccount b p).Counted := by
  intro b' p'
  rw [contribution_openAccount]
  exact h b' p'

theorem Counted.close {L : Ledger β ι M} (h : L.Counted) (b : β) (p : ι) :
    (L.close b p).Counted := by
  intro b' p'
  rw [contribution_close, close_latest]
  exact h b' p'

/-- **A posting is counted once** if nothing of its member was closed before. -/
theorem Counted.post {L : Ledger β ι M} (h : L.Counted) {b : β} {p : ι} (v : M)
    (hclosed : L.closedOf b p = 0) : (L.post b p v).Counted := by
  intro b' p'
  rw [contribution_post]
  by_cases hbp : b' = b ∧ p' = p
  · rw [if_pos hbp, hclosed, zero_add]
    simp [Ledger.post, hbp]
  · rw [if_neg hbp, h b' p']
    simp [Ledger.post, hbp]

theorem closedTotal_close {L : Ledger β ι M} {b : β} {p : ι} {v : M} (hv : L.live b p = some v)
    (b' : β) : (L.close b p).closedTotal b'
      = if b' = b then L.closedTotal b' + v else L.closedTotal b' := by
  unfold close closedTotal
  rw [hv]
  by_cases hb : b' = b
  · simp [hb, List.filter_append]
  · simp [hb, Ne.symm hb, List.filter_append]

/-! ## Totals -/

/-- The closed sum of a group is the sum of its members' closed balances. -/
theorem closedTotal_eq_sum (L : Ledger β ι M) (b : β) {members : Finset ι}
    (h : ∀ e ∈ L.closed, e.1 = b → e.2.1 ∈ members) :
    L.closedTotal b = ∑ p ∈ members, L.closedOf b p := by
  unfold closedTotal closedOf
  revert h
  induction L.closed with
  | nil => intro _; simp
  | cons e rest ih =>
      intro h
      have ih' := ih fun e' he' => h e' (List.mem_cons_of_mem _ he')
      by_cases hb : e.1 = b
      · have hmem : e.2.1 ∈ members := h e List.mem_cons_self hb
        have hsplit : ∀ p ∈ members,
            (((e :: rest).filter fun e' => decide (e'.1 = b ∧ e'.2.1 = p)).map
              fun e' => e'.2.2).sum
            = (if e.2.1 = p then e.2.2 else 0)
              + ((rest.filter fun e' => decide (e'.1 = b ∧ e'.2.1 = p)).map
                  fun e' => e'.2.2).sum := by
          intro p _
          by_cases hp : e.2.1 = p
          · simp [hb, hp]
          · simp [hp]
        rw [Finset.sum_congr rfl hsplit, Finset.sum_add_distrib, Finset.sum_ite_eq,
          if_pos hmem, ← ih']
        simp [hb]
      · have hrest : ∀ p ∈ members,
            (((e :: rest).filter fun e' => decide (e'.1 = b ∧ e'.2.1 = p)).map
              fun e' => e'.2.2).sum
            = ((rest.filter fun e' => decide (e'.1 = b ∧ e'.2.1 = p)).map
                fun e' => e'.2.2).sum := by
          intro p _
          simp [hb]
        rw [Finset.sum_congr rfl hrest, ← ih']
        simp [hb]

/-- **A group's total is the sum of its members' contributions.** -/
theorem total_eq_sum_contribution (L : Ledger β ι M) (b : β) (holders : Finset ι)
    (hlive : ∀ p, p ∉ holders → L.live b p = none) :
    ∃ members : Finset ι, holders ⊆ members ∧ (∀ p, p ∉ members → L.contribution b p = 0) ∧
      L.closedTotal b + ∑ p ∈ holders, (L.live b p).getD 0
        = ∑ p ∈ members, L.contribution b p := by
  classical
  let owners : Finset ι :=
    ((L.closed.filter fun e => decide (e.1 = b)).map fun e => e.2.1).toFinset
  have howners : ∀ e ∈ L.closed, e.1 = b → e.2.1 ∈ holders ∪ owners := by
    intro e he hb
    refine Finset.mem_union_right _ (List.mem_toFinset.mpr ?_)
    exact List.mem_map.mpr ⟨e, List.mem_filter.mpr ⟨he, by simpa using hb⟩, rfl⟩
  refine ⟨holders ∪ owners, Finset.subset_union_left, ?_, ?_⟩
  · intro p hp
    have hnone : L.live b p = none := hlive p fun h => hp (Finset.mem_union_left _ h)
    have hclosed : (L.closed.filter fun e => decide (e.1 = b ∧ e.2.1 = p)) = [] := by
      rw [List.filter_eq_nil_iff]
      intro e he hbp
      rw [decide_eq_true_eq] at hbp
      exact hp (hbp.2 ▸ howners e he hbp.1)
    simp only [contribution, closedOf, hnone, hclosed, List.map_nil, List.sum_nil,
      Option.getD_none, add_zero]
  · have hsum : ∑ p ∈ holders, (L.live b p).getD 0
        = ∑ p ∈ holders ∪ owners, (L.live b p).getD 0 := by
      refine Finset.sum_subset Finset.subset_union_left ?_
      intro p _ hp
      rw [hlive p hp, Option.getD_none]
    rw [L.closedTotal_eq_sum b howners, hsum, ← Finset.sum_add_distrib]
    rfl

end Ledger

end OpenStreamGrid
