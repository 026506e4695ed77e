import Mathlib.Data.List.Nodup
import Mathlib.Algebra.BigOperators.Group.Finset.Basic
import Mathlib.Algebra.BigOperators.Group.List.Basic

/-!
# Insertion-ordered maps

A map that iterates in the order its keys were first set: setting a present key
replaces its value in place, setting a new key appends, deleting forgets the
place. Distinctness of the keys is carried by the type, so `get?` finds the one
entry of a key and the sum laws of the last section need no side condition.
-/

namespace OpenStreamGrid

/-- A finite map together with the order its keys were first set in. -/
@[ext] structure OrderedMap (κ β : Type*) where
  entries : List (κ × β)
  nodupKeys : (entries.map Prod.fst).Nodup
deriving DecidableEq

namespace OrderedMap

variable {κ β : Type*}

instance : EmptyCollection (OrderedMap κ β) := ⟨⟨[], List.nodup_nil⟩⟩

def keys (m : OrderedMap κ β) : List κ := m.entries.map Prod.fst

def values (m : OrderedMap κ β) : List β := m.entries.map Prod.snd

def size (m : OrderedMap κ β) : ℕ := m.entries.length

instance : Membership κ (OrderedMap κ β) := ⟨fun m k => k ∈ m.keys⟩

theorem mem_iff_mem_keys {k : κ} {m : OrderedMap κ β} : k ∈ m ↔ k ∈ m.keys :=
  Iff.rfl

@[simp] theorem not_mem_empty (k : κ) : k ∉ (∅ : OrderedMap κ β) := List.not_mem_nil

theorem length_keys (m : OrderedMap κ β) : m.keys.length = m.size :=
  List.length_map ..

/-- Maps with the same keys list them up to order. -/
theorem keys_perm {γ : Type*} {m : OrderedMap κ β} {m' : OrderedMap κ γ}
    (h : ∀ k, k ∈ m ↔ k ∈ m') : m.keys.Perm m'.keys :=
  (List.perm_ext_iff_of_nodup m.nodupKeys m'.nodupKeys).mpr h

/-- The sum of `f` over the values of a map. -/
def sumValues {M : Type*} [AddCommMonoid M] (f : β → M) (m : OrderedMap κ β) : M :=
  (m.values.map f).sum

theorem sumValues_eq {M : Type*} [AddCommMonoid M] (f : β → M) (m : OrderedMap κ β) :
    m.sumValues f = (m.entries.map (fun e => f e.2)).sum := by
  simp [sumValues, values, Function.comp_def]

@[simp] theorem sumValues_empty {M : Type*} [AddCommMonoid M] (f : β → M) :
    (∅ : OrderedMap κ β).sumValues f = 0 := rfl

variable [DecidableEq κ]

instance (k : κ) (m : OrderedMap κ β) : Decidable (k ∈ m) :=
  inferInstanceAs (Decidable (k ∈ m.keys))

theorem card_keys (m : OrderedMap κ β) : m.keys.toFinset.card = m.size := by
  have hnd : m.keys.Nodup := m.nodupKeys
  rw [List.toFinset_card_of_nodup hnd, length_keys]

/-! ## Association lists with distinct keys -/

/-- The value of a key in an association list. -/
def find (k : κ) : List (κ × β) → Option β
  | [] => none
  | (k', b) :: rest => if k' = k then some b else find k rest

/-- Replace the value of `k` where it stands, or append it. -/
def setEntry (k : κ) (b : β) : List (κ × β) → List (κ × β)
  | [] => [(k, b)]
  | (k', b') :: rest =>
      if k' = k then (k, b) :: rest else (k', b') :: setEntry k b rest

theorem map_fst_setEntry (k : κ) (b : β) : ∀ es : List (κ × β),
    (setEntry k b es).map Prod.fst
      = if k ∈ es.map Prod.fst then es.map Prod.fst else es.map Prod.fst ++ [k]
  | [] => by simp [setEntry]
  | (k', b') :: rest => by
      by_cases h : k' = k
      · simp [setEntry, h]
      · have hk : ¬ k = k' := fun e => h e.symm
        simp only [setEntry, if_neg h, List.map_cons, map_fst_setEntry k b rest,
          List.mem_cons, hk, false_or]
        split_ifs <;> simp

/-- A new key is appended. -/
theorem setEntry_of_not_mem {k : κ} {b : β} : ∀ {es : List (κ × β)},
    k ∉ es.map Prod.fst → setEntry k b es = es ++ [(k, b)]
  | [], _ => rfl
  | (k', b') :: rest, hfresh => by
      have hne : k' ≠ k := fun heq => hfresh (heq ▸ List.mem_cons_self)
      rw [setEntry, if_neg hne,
        setEntry_of_not_mem fun hmem => hfresh (List.mem_cons_of_mem k' hmem)]
      rfl

theorem find_setEntry (k k' : κ) (b : β) : ∀ es : List (κ × β),
    find k' (setEntry k b es) = if k' = k then some b else find k' es
  | [] => by
      by_cases h : k = k'
      · simp [setEntry, find, h]
      · simp [setEntry, find, h, Ne.symm h]
  | (k'', b'') :: rest => by
      by_cases h : k'' = k
      · subst h
        by_cases h' : k'' = k'
        · simp [setEntry, find, h']
        · simp [setEntry, find, h', Ne.symm h']
      · simp only [setEntry, if_neg h, find, find_setEntry k k' b rest]
        by_cases h' : k'' = k'
        · have : ¬ k' = k := fun e => h (h'.trans e)
          simp [h', this]
        · simp [h']

theorem find_filter_ne (k k' : κ) : ∀ es : List (κ × β),
    find k' (es.filter (fun e => decide (e.1 ≠ k))) = if k' = k then none else find k' es
  | [] => by simp [find]
  | (k'', b'') :: rest => by
      by_cases h : k'' = k
      · subst h
        have ih := find_filter_ne k'' k' rest
        by_cases h' : k'' = k'
        · simpa [h'] using ih
        · simpa [find, h', Ne.symm h'] using ih
      · simp only [List.filter_cons, ne_eq, h, not_false_eq_true, decide_true, if_true, find,
          find_filter_ne k k' rest]
        by_cases h' : k'' = k'
        · have : ¬ k' = k := fun e => h (h'.trans e)
          simp [h', this]
        · simp [h']

theorem find_eq_none_iff {k : κ} : ∀ {es : List (κ × β)},
    find k es = none ↔ k ∉ es.map Prod.fst
  | [] => by simp [find]
  | (k', b') :: rest => by
      by_cases h : k' = k
      · simp [find, h]
      · have ih : find k rest = none ↔ k ∉ rest.map Prod.fst := find_eq_none_iff
        simp only [find, if_neg h, List.map_cons, List.mem_cons, not_or, ih]
        exact ⟨fun hr => ⟨fun e => h e.symm, hr⟩, fun hr => hr.2⟩

theorem find_eq_some_iff {k : κ} {b : β} : ∀ {es : List (κ × β)},
    (es.map Prod.fst).Nodup → (find k es = some b ↔ (k, b) ∈ es)
  | [], _ => by simp [find]
  | (k', b') :: rest, hnd => by
      obtain ⟨hk, hrest⟩ := List.nodup_cons.mp hnd
      by_cases h : k' = k
      · subst h
        simp only [find, if_true, Option.some.injEq, List.mem_cons, Prod.mk.injEq, true_and]
        constructor
        · intro e
          exact Or.inl e.symm
        · rintro (e | hmem)
          · exact e.symm
          · exact absurd (List.mem_map_of_mem hmem) hk
      · simp [find, h, find_eq_some_iff hrest, Ne.symm h]

/-! ## The operations -/

def get? (m : OrderedMap κ β) (k : κ) : Option β := find k m.entries

def set (m : OrderedMap κ β) (k : κ) (b : β) : OrderedMap κ β :=
  ⟨setEntry k b m.entries, by
    rw [map_fst_setEntry]
    split_ifs with h
    · exact m.nodupKeys
    · rw [List.nodup_append]
      exact ⟨m.nodupKeys, List.nodup_singleton k, by
        intro x hx y hy hxy
        rw [List.mem_singleton.mp hy] at hxy
        exact h (hxy ▸ hx)⟩⟩

def delete (m : OrderedMap κ β) (k : κ) : OrderedMap κ β :=
  ⟨m.entries.filter (fun e => decide (e.1 ≠ k)),
    (List.filter_sublist.map Prod.fst).nodup m.nodupKeys⟩

/-- Update the value of a key, where it has one. -/
def modify (m : OrderedMap κ β) (k : κ) (f : β → β) : OrderedMap κ β :=
  match m.get? k with
  | some b => m.set k (f b)
  | none => m

/-- The same keys in the same order, with other values. -/
def mapWithKey {γ : Type*} (f : κ → β → γ) (m : OrderedMap κ β) : OrderedMap κ γ :=
  ⟨m.entries.map fun e => (e.1, f e.1 e.2), by
    rw [List.map_map]
    exact m.nodupKeys⟩

@[simp] theorem get?_empty (k : κ) : (∅ : OrderedMap κ β).get? k = none := rfl

@[simp] theorem get?_set (m : OrderedMap κ β) (k k' : κ) (b : β) :
    (m.set k b).get? k' = if k' = k then some b else m.get? k' :=
  find_setEntry k k' b m.entries

@[simp] theorem get?_delete (m : OrderedMap κ β) (k k' : κ) :
    (m.delete k).get? k' = if k' = k then none else m.get? k' :=
  find_filter_ne k k' m.entries

theorem get?_eq_none_iff {m : OrderedMap κ β} {k : κ} : m.get? k = none ↔ k ∉ m :=
  find_eq_none_iff

theorem get?_eq_some_iff {m : OrderedMap κ β} {k : κ} {b : β} :
    m.get? k = some b ↔ (k, b) ∈ m.entries :=
  find_eq_some_iff m.nodupKeys

theorem mem_iff_isSome {m : OrderedMap κ β} {k : κ} : k ∈ m ↔ (m.get? k).isSome := by
  rw [← not_iff_not, ← get?_eq_none_iff, Option.not_isSome_iff_eq_none]

theorem mem_of_get? {m : OrderedMap κ β} {k : κ} {b : β} (h : m.get? k = some b) :
    k ∈ m := by
  rw [mem_iff_isSome, h]
  rfl

theorem get?_of_mem {m : OrderedMap κ β} {k : κ} (h : k ∈ m) : ∃ b, m.get? k = some b :=
  Option.isSome_iff_exists.mp (mem_iff_isSome.mp h)

theorem setEntry_of_find {k : κ} {b : β} : ∀ {es : List (κ × β)},
    find k es = some b → setEntry k b es = es
  | [], h => nomatch h
  | (k', b') :: rest, h => by
      by_cases hk : k' = k
      · simp only [find, if_pos hk, Option.some.injEq] at h
        rw [setEntry, if_pos hk, hk, h]
      · simp only [find, if_neg hk] at h
        rw [setEntry, if_neg hk, setEntry_of_find h]

theorem setEntry_setEntry (k : κ) (b b' : β) : ∀ es : List (κ × β),
    setEntry k b' (setEntry k b es) = setEntry k b' es
  | [] => by simp [setEntry]
  | (k', b'') :: rest => by
      by_cases hk : k' = k
      · simp [setEntry, hk]
      · simp [setEntry, hk, setEntry_setEntry k b b' rest]

/-- Setting a key to the value it has changes nothing. -/
theorem set_of_get? {m : OrderedMap κ β} {k : κ} {b : β} (h : m.get? k = some b) :
    m.set k b = m := OrderedMap.ext (setEntry_of_find h)

theorem set_set (m : OrderedMap κ β) (k : κ) (b b' : β) :
    (m.set k b).set k b' = m.set k b' := OrderedMap.ext (setEntry_setEntry k b b' m.entries)

@[simp] theorem mem_set {m : OrderedMap κ β} {k k' : κ} {b : β} :
    k' ∈ m.set k b ↔ k' ∈ m ∨ k' = k := by
  simp only [mem_iff_isSome, get?_set]
  split_ifs with h
  · simp [h]
  · simp [h]

@[simp] theorem mem_delete {m : OrderedMap κ β} {k k' : κ} :
    k' ∈ m.delete k ↔ k' ∈ m ∧ k' ≠ k := by
  simp only [mem_iff_isSome, get?_delete]
  split_ifs with h
  · simp [h]
  · simp [h]

theorem delete_of_not_mem {m : OrderedMap κ β} {k : κ} (h : k ∉ m) : m.delete k = m := by
  apply OrderedMap.ext
  refine List.filter_eq_self.mpr fun e he => decide_eq_true ?_
  rintro rfl
  exact h (List.mem_map_of_mem he)

theorem size_delete_lt {m : OrderedMap κ β} {k : κ} (h : k ∈ m) :
    (m.delete k).size < m.size := by
  obtain ⟨entry, hentry, hkey⟩ := List.mem_map.mp h
  refine List.length_filter_lt_length_iff_exists.mpr ⟨entry, hentry, ?_⟩
  rw [decide_eq_true_eq]
  exact not_not.mpr hkey

@[simp] theorem get?_modify (m : OrderedMap κ β) (k k' : κ) (f : β → β) :
    (m.modify k f).get? k' = if k' = k then (m.get? k).map f else m.get? k' := by
  unfold modify
  cases hk : m.get? k with
  | none =>
      split_ifs with h
      · rw [h, hk, Option.map_none]
      · rfl
  | some b => rw [get?_set, Option.map_some]

@[simp] theorem get?_mapWithKey {γ : Type*} (f : κ → β → γ) (m : OrderedMap κ β) (k : κ) :
    (m.mapWithKey f).get? k = (m.get? k).map (f k) := by
  change find k (m.entries.map fun e => (e.1, f e.1 e.2)) = (find k m.entries).map (f k)
  induction m.entries with
  | nil => rfl
  | cons e rest ih =>
      obtain ⟨k', b⟩ := e
      by_cases h : k' = k
      · simp [find, h]
      · simp [find, h, ih]

@[simp] theorem mem_modify {m : OrderedMap κ β} {k k' : κ} {f : β → β} :
    k' ∈ m.modify k f ↔ k' ∈ m := by
  simp only [mem_iff_isSome, get?_modify]
  split_ifs with h
  · rw [h, Option.isSome_map]
  · rfl

theorem mem_values_iff {m : OrderedMap κ β} {b : β} :
    b ∈ m.values ↔ ∃ k, m.get? k = some b := by
  simp only [values, List.mem_map, get?_eq_some_iff]
  constructor
  · rintro ⟨⟨k, b'⟩, hmem, rfl⟩
    exact ⟨k, hmem⟩
  · rintro ⟨k, hmem⟩
    exact ⟨(k, b), hmem, rfl⟩

/-- Deleting keys one after another. -/
theorem get?_foldl_delete (k : κ) (ks : List κ) : ∀ m : OrderedMap κ β,
    (ks.foldl delete m).get? k = if k ∈ ks then none else m.get? k := by
  induction ks with
  | nil => intro m; simp
  | cons k' rest ih =>
      intro m
      rw [List.foldl_cons, ih, get?_delete]
      by_cases hk : k = k'
      · simp [hk]
      · simp [hk]

theorem keys_set_of_mem {m : OrderedMap κ β} {k : κ} (h : k ∈ m) (b : β) :
    (m.set k b).keys = m.keys := by
  show ((setEntry k b m.entries).map Prod.fst) = _
  rw [map_fst_setEntry]
  exact if_pos h

theorem keys_set_of_not_mem {m : OrderedMap κ β} {k : κ} (h : k ∉ m) (b : β) :
    (m.set k b).keys = m.keys ++ [k] := by
  show ((setEntry k b m.entries).map Prod.fst) = _
  rw [map_fst_setEntry]
  exact if_neg h

theorem keys_modify (m : OrderedMap κ β) (k : κ) (f : β → β) : (m.modify k f).keys = m.keys := by
  unfold modify
  cases hk : m.get? k with
  | none => rfl
  | some b => exact keys_set_of_mem (mem_of_get? hk) _

omit [DecidableEq κ] in
theorem keys_mapWithKey {γ : Type*} (f : κ → β → γ) (m : OrderedMap κ β) :
    (m.mapWithKey f).keys = m.keys := by
  show (m.entries.map _).map Prod.fst = m.entries.map Prod.fst
  rw [List.map_map]
  rfl

theorem keys_foldl_delete (ks : List κ) : ∀ m : OrderedMap κ β,
    (ks.foldl delete m).keys = m.keys.filter (· ∉ ks) := by
  induction ks with
  | nil => intro m; simp
  | cons k ks ih =>
      intro m
      have hdelete : (m.delete k).keys = m.keys.filter (· ≠ k) := by
        show (m.entries.filter _).map Prod.fst = (m.entries.map Prod.fst).filter _
        rw [List.filter_map]
        rfl
      rw [List.foldl_cons, ih, hdelete, List.filter_filter]
      congr 1
      funext k'
      simp [Bool.and_comm]

/-- Deleting the oldest keys leaves the others in their order. -/
theorem keys_foldl_delete_take (m : OrderedMap κ β) (n : ℕ) :
    ((m.keys.take n).foldl delete m).keys = m.keys.drop n := by
  have hnodup : (m.keys.take n ++ m.keys.drop n).Nodup := by
    rw [List.take_append_drop]
    exact m.nodupKeys
  rw [keys_foldl_delete]
  conv_lhs => rw [← List.take_append_drop n m.keys]
  rw [List.filter_append, List.take_append_drop, List.filter_eq_nil_iff.mpr, List.nil_append,
    List.filter_eq_self.mpr]
  · intro k hk
    exact decide_eq_true fun hk' => (List.nodup_append.mp hnodup).2.2 k hk' k hk rfl
  · intro k hk
    simpa using hk

/-- Deleting, while iterating, the entries that meet a condition. -/
theorem get?_foldl_deleteIf (m : OrderedMap κ β) (P : κ × β → Prop) [DecidablePred P] (k : κ) :
    (m.entries.foldl (fun kept entry => if P entry then kept.delete entry.1 else kept) m).get? k
      = (m.get? k).filter fun b => decide (¬ P (k, b)) := by
  have hkeys : m.entries.foldl (fun kept entry => if P entry then kept.delete entry.1 else kept) m
      = ((m.entries.filter fun entry => decide (P entry)).map Prod.fst).foldl delete m := by
    rw [List.foldl_map, List.foldl_filter]
    simp only [decide_eq_true_eq]
  have hmem : k ∈ (m.entries.filter fun entry => decide (P entry)).map Prod.fst
      ↔ ∃ b, m.get? k = some b ∧ P (k, b) := by
    simp only [List.mem_map, List.mem_filter, decide_eq_true_eq]
    constructor
    · rintro ⟨⟨k', b⟩, ⟨hentry, hP⟩, rfl⟩
      exact ⟨b, get?_eq_some_iff.mpr hentry, hP⟩
    · rintro ⟨b, hget, hP⟩
      exact ⟨(k, b), ⟨get?_eq_some_iff.mp hget, hP⟩, rfl⟩
  rw [hkeys, get?_foldl_delete]
  cases hget : m.get? k with
  | none => simp
  | some b =>
      have hiff : k ∈ (m.entries.filter fun entry => decide (P entry)).map Prod.fst ↔ P (k, b) := by
        rw [hmem, hget]
        simp
      by_cases hP : P (k, b)
      · rw [if_pos (hiff.mpr hP), Option.filter_some_neg (by simpa using hP)]
      · rw [if_neg (mt hiff.mp hP), Option.filter_some_pos (by simpa using hP)]

/-- The entries of one key. -/
theorem entries_filter_key (m : OrderedMap κ β) (k : κ) :
    m.entries.filter (fun e => decide (e.1 = k)) = ((m.get? k).map (Prod.mk k)).toList := by
  have hnd := m.nodupKeys
  unfold get?
  revert hnd
  induction m.entries with
  | nil => intro _; rfl
  | cons e rest ih =>
      intro hnd
      obtain ⟨hk, hrest⟩ := List.nodup_cons.mp hnd
      obtain ⟨k', b'⟩ := e
      by_cases h : k' = k
      · subst h
        have hnone : find k' rest = none := find_eq_none_iff.mpr hk
        rw [List.filter_cons_of_pos (by simp), ih hrest, hnone]
        simp [find]
      · rw [List.filter_cons_of_neg (by simpa using h), ih hrest]
        simp [find, h]

/-! ## Sums over the values -/

section Sum

variable {M : Type*} [AddCommMonoid M] (f : β → M)

private theorem sum_setEntry_of_not_mem (k : κ) (b : β) : ∀ es : List (κ × β),
    k ∉ es.map Prod.fst →
    ((setEntry k b es).map (fun e => f e.2)).sum = (es.map (fun e => f e.2)).sum + f b
  | [], _ => by simp [setEntry]
  | (k', b') :: rest, h => by
      simp only [List.map_cons, List.mem_cons, not_or] at h
      have hne : ¬ k' = k := fun e => h.1 e.symm
      simp only [setEntry, if_neg hne, List.map_cons, List.sum_cons,
        sum_setEntry_of_not_mem k b rest h.2, add_assoc]

private theorem sum_setEntry_of_find (k : κ) (b b₀ : β) : ∀ es : List (κ × β),
    find k es = some b₀ →
    ((setEntry k b es).map (fun e => f e.2)).sum + f b₀
      = (es.map (fun e => f e.2)).sum + f b
  | [], h => by simp [find] at h
  | (k', b') :: rest, h => by
      by_cases hk : k' = k
      · simp only [find, hk, if_true, Option.some.injEq] at h
        subst h
        simp only [setEntry, hk, if_true, List.map_cons, List.sum_cons]
        rw [add_right_comm, add_comm (f b) (f b'), add_right_comm]
      · simp only [find, if_neg hk] at h
        simp only [setEntry, if_neg hk, List.map_cons, List.sum_cons, add_assoc,
          sum_setEntry_of_find k b b₀ rest h]

private theorem sum_filter_ne_of_find (k : κ) (b : β) : ∀ es : List (κ × β),
    (es.map Prod.fst).Nodup → find k es = some b →
    ((es.filter (fun e => decide (e.1 ≠ k))).map (fun e => f e.2)).sum + f b
      = (es.map (fun e => f e.2)).sum
  | [], _, h => by simp [find] at h
  | (k', b') :: rest, hnd, h => by
      obtain ⟨hk', hrest⟩ := List.nodup_cons.mp hnd
      by_cases hk : k' = k
      · simp only [find, hk, if_true, Option.some.injEq] at h
        subst h
        have hrest' : rest.filter (fun e => decide (e.1 ≠ k)) = rest := by
          rw [List.filter_eq_self]
          intro e he
          have : e.1 ≠ k := fun h => hk' (List.mem_map.mpr ⟨e, he, h.trans hk.symm⟩)
          simpa using this
        rw [List.filter_cons_of_neg (by simpa using hk), hrest', List.map_cons, List.sum_cons,
          add_comm]
      · simp only [find, if_neg hk] at h
        rw [List.filter_cons_of_pos (by simpa using hk), List.map_cons, List.sum_cons,
          List.map_cons, List.sum_cons, add_assoc, sum_filter_ne_of_find k b rest hrest h]

theorem sumValues_set_of_not_mem {m : OrderedMap κ β} {k : κ} {b : β} (h : k ∉ m) :
    (m.set k b).sumValues f = m.sumValues f + f b := by
  simp only [sumValues_eq]
  exact sum_setEntry_of_not_mem f k b m.entries h

theorem sumValues_set_of_get? {m : OrderedMap κ β} {k : κ} {b b₀ : β}
    (h : m.get? k = some b₀) :
    (m.set k b).sumValues f + f b₀ = m.sumValues f + f b := by
  simp only [sumValues_eq]
  exact sum_setEntry_of_find f k b b₀ m.entries h

theorem sumValues_delete_of_get? {m : OrderedMap κ β} {k : κ} {b : β}
    (h : m.get? k = some b) : (m.delete k).sumValues f + f b = m.sumValues f := by
  simp only [sumValues_eq]
  exact sum_filter_ne_of_find f k b m.entries m.nodupKeys h

/-- The sum over the values, key by key. -/
theorem sumValues_eq_sum_keys (m : OrderedMap κ β) :
    m.sumValues f = ∑ k ∈ m.keys.toFinset, ((m.get? k).map f).getD 0 := by
  have hkeys : m.keys.Nodup := m.nodupKeys
  rw [List.sum_toFinset _ hkeys, sumValues_eq, keys, List.map_map]
  congr 1
  refine List.map_congr_left fun e he => ?_
  simp [get?_eq_some_iff.mpr he]

/-- The sum over the values of the keys with a property, key by key. -/
theorem sum_entries_filter (m : OrderedMap κ M) (P : κ → Prop) [DecidablePred P] :
    ((m.entries.filter fun e => decide (P e.1)).map Prod.snd).sum
      = ∑ k ∈ m.keys.toFinset with P k, (m.get? k).getD 0 := by
  have hkeys : (m.keys.filter fun k => decide (P k)).Nodup := List.Nodup.filter _ m.nodupKeys
  have hfilter : m.keys.toFinset.filter P = (m.keys.filter fun k => decide (P k)).toFinset := by
    ext k
    simp
  rw [hfilter, List.sum_toFinset _ hkeys, keys, List.filter_map, List.map_map]
  congr 1
  refine List.map_congr_left fun e he => ?_
  simp [get?_eq_some_iff.mpr (List.mem_filter.mp he).1]

end Sum

end OrderedMap

end OpenStreamGrid
