import OpenStreamGrid.Lib.OrderedMap

/-!
# Counting by key

A map that counts what is held under each key and keeps an entry for as long as
something is: counting up creates the entry, counting down to zero deletes it.
-/

namespace OpenStreamGrid

namespace CounterMap

variable {κ : Type*} [DecidableEq κ]

def count (m : OrderedMap κ ℕ) (k : κ) : ℕ := (m.get? k).getD 0

def increment (m : OrderedMap κ ℕ) (k : κ) : OrderedMap κ ℕ := m.set k (count m k + 1)

/-- A key that is not there is treated as if it were there once. -/
def decrement (m : OrderedMap κ ℕ) (k : κ) : OrderedMap κ ℕ :=
  if (m.get? k).getD 1 - 1 = 0 then m.delete k else m.set k ((m.get? k).getD 1 - 1)

/-- No key is there for nothing. -/
def Tight (m : OrderedMap κ ℕ) : Prop := ∀ k n, m.get? k = some n → 0 < n

variable {m : OrderedMap κ ℕ} {k k' : κ}

@[simp] theorem count_empty (k : κ) : count (∅ : OrderedMap κ ℕ) k = 0 := rfl

theorem tight_empty : Tight (∅ : OrderedMap κ ℕ) := by
  intro k n hn
  cases hn

/-- In a tight map a key is there exactly if something is counted under it. -/
theorem Tight.mem_iff (h : Tight m) : k ∈ m ↔ 0 < count m k := by
  unfold count
  rw [OrderedMap.mem_iff_isSome]
  cases hk : m.get? k with
  | none => simp
  | some n => simpa using h k n hk

theorem count_increment :
    count (increment m k) k' = count m k' + if k' = k then 1 else 0 := by
  unfold increment count
  rw [OrderedMap.get?_set]
  split_ifs with hk
  · rw [hk, Option.getD_some]
  · rfl

theorem Tight.increment (h : Tight m) : Tight (increment m k) := by
  intro k' n hn
  unfold CounterMap.increment at hn
  rw [OrderedMap.get?_set] at hn
  split_ifs at hn
  · obtain rfl := Option.some.inj hn
    exact Nat.succ_pos _
  · exact h k' n hn

theorem count_decrement (hk : 0 < count m k) (k' : κ) :
    count (decrement m k) k' + (if k' = k then 1 else 0) = count m k' := by
  have hget : (m.get? k).getD 1 = count m k := by
    unfold count at hk ⊢
    cases hn : m.get? k with
    | none =>
        rw [hn] at hk
        exact absurd hk (lt_irrefl 0)
    | some n => rfl
  unfold decrement
  rw [hget]
  unfold count at hk ⊢
  by_cases hk' : k' = k
  · subst hk'
    rw [if_pos rfl]
    split_ifs with hlast
    · rw [OrderedMap.get?_delete, if_pos rfl, Option.getD_none]
      omega
    · rw [OrderedMap.get?_set, if_pos rfl, Option.getD_some]
      omega
  · rw [if_neg hk']
    split_ifs
    · rw [OrderedMap.get?_delete, if_neg hk', Nat.add_zero]
    · rw [OrderedMap.get?_set, if_neg hk', Nat.add_zero]

theorem Tight.decrement (h : Tight m) : Tight (decrement m k) := by
  intro k' n hn
  unfold CounterMap.decrement at hn
  split_ifs at hn with hlast
  · rw [OrderedMap.get?_delete] at hn
    split_ifs at hn
    exact h k' n hn
  · rw [OrderedMap.get?_set] at hn
    split_ifs at hn
    · obtain rfl := Option.some.inj hn
      exact Nat.pos_of_ne_zero hlast
    · exact h k' n hn

end CounterMap

end OpenStreamGrid
