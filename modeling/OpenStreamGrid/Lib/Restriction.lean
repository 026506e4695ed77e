import OpenStreamGrid.Lib.OrderedMap
import OpenStreamGrid.Lib.OrderedSet

/-!
# Parts of maps and sets

The entries of a map whose keys have a property, and the elements of a set that
have one, each in the order of the whole. A change outside the part is not seen
in it, and a change inside it is the same change of the part alone, so two maps
that agree on a part still do after the same change to both.
-/

namespace OpenStreamGrid

namespace OrderedMap

variable {κ β : Type*} [DecidableEq κ] (P : κ → Prop) [DecidablePred P]

/-- The entries whose keys have the property. -/
def restrict (m : OrderedMap κ β) : OrderedMap κ β :=
  ⟨m.entries.filter fun e => decide (P e.1), (List.filter_sublist.map Prod.fst).nodup m.nodupKeys⟩

variable {P}

theorem find_filter (k : κ) (es : List (κ × β)) :
    find k (es.filter fun e => decide (P e.1)) = if P k then find k es else none := by
  induction es with
  | nil => rw [List.filter_nil, find, ite_self]
  | cons e rest ih =>
      obtain ⟨k', b⟩ := e
      by_cases hk' : P k'
      · rw [List.filter_cons_of_pos (by simpa using hk'), find, find, ih]
        by_cases hk : k' = k
        · rw [if_pos hk, if_pos hk, if_pos (hk ▸ hk')]
        · rw [if_neg hk, if_neg hk]
      · rw [List.filter_cons_of_neg (by simpa using hk'), ih]
        split_ifs with hk
        · rw [find, if_neg]
          rintro rfl
          exact hk' hk
        · rfl

@[simp] theorem get?_restrict (m : OrderedMap κ β) (k : κ) :
    (m.restrict P).get? k = if P k then m.get? k else none := find_filter k m.entries

theorem filter_setEntry (k : κ) (b : β) (es : List (κ × β)) :
    (setEntry k b es).filter (fun e => decide (P e.1))
      = if P k then setEntry k b (es.filter fun e => decide (P e.1))
        else es.filter fun e => decide (P e.1) := by
  induction es with
  | nil =>
      split_ifs with hk
      · rw [setEntry, List.filter_cons_of_pos (by simpa using hk)]
        rfl
      · rw [setEntry, List.filter_cons_of_neg (by simpa using hk)]
  | cons e rest ih =>
      obtain ⟨k', b'⟩ := e
      rw [setEntry]
      by_cases hkk' : k' = k
      · subst hkk'
        rw [if_pos rfl]
        split_ifs with hk
        · rw [List.filter_cons_of_pos (by simpa using hk),
            List.filter_cons_of_pos (by simpa using hk), setEntry, if_pos rfl]
        · rw [List.filter_cons_of_neg (by simpa using hk),
            List.filter_cons_of_neg (by simpa using hk)]
      · rw [if_neg hkk']
        by_cases hk' : P k'
        · rw [List.filter_cons_of_pos (by simpa using hk'),
            List.filter_cons_of_pos (by simpa using hk'), ih]
          split_ifs
          · rw [setEntry, if_neg hkk']
          · rfl
        · rw [List.filter_cons_of_neg (by simpa using hk'),
            List.filter_cons_of_neg (by simpa using hk'), ih]

theorem restrict_set (m : OrderedMap κ β) (k : κ) (b : β) :
    (m.set k b).restrict P = if P k then (m.restrict P).set k b else m.restrict P := by
  have hentries := filter_setEntry (P := P) k b m.entries
  split_ifs with hk
  · rw [if_pos hk] at hentries
    exact OrderedMap.ext hentries
  · rw [if_neg hk] at hentries
    exact OrderedMap.ext hentries

theorem restrict_delete (m : OrderedMap κ β) (k : κ) :
    (m.delete k).restrict P = (m.restrict P).delete k := by
  apply OrderedMap.ext
  show (m.entries.filter _).filter _ = (m.entries.filter _).filter _
  rw [List.filter_comm]

/-- Deleting a key outside the part changes nothing in it. -/
theorem restrict_delete_of_not {m : OrderedMap κ β} {k : κ} (hk : ¬ P k) :
    (m.delete k).restrict P = m.restrict P := by
  rw [restrict_delete]
  refine delete_of_not_mem fun hmem => ?_
  obtain ⟨e, he, rfl⟩ := List.mem_map.mp hmem
  exact hk (of_decide_eq_true (List.mem_filter.mp he).2)

section Congruence

variable {m m' : OrderedMap κ β}

theorem restrict_set_congr (h : m.restrict P = m'.restrict P) (k : κ) (b : β) :
    (m.set k b).restrict P = (m'.set k b).restrict P := by
  rw [restrict_set, restrict_set, h]

theorem restrict_delete_congr (h : m.restrict P = m'.restrict P) (k : κ) :
    (m.delete k).restrict P = (m'.delete k).restrict P := by
  rw [restrict_delete, restrict_delete, h]

theorem get?_congr (h : m.restrict P = m'.restrict P) {k : κ} (hk : P k) :
    m.get? k = m'.get? k := by
  have hget : (m.restrict P).get? k = (m'.restrict P).get? k := by rw [h]
  rwa [get?_restrict, get?_restrict, if_pos hk, if_pos hk] at hget

end Congruence

end OrderedMap

namespace OrderedSet

variable {α : Type*} [DecidableEq α] (P : α → Prop) [DecidablePred P]

/-- The elements that have the property. -/
def restrict (s : OrderedSet α) : OrderedSet α :=
  ⟨s.toList.filter fun a => decide (P a), s.nodup.filter _⟩

variable {P}

omit [DecidableEq α] in
theorem mem_restrict {s : OrderedSet α} {a : α} : a ∈ s.restrict P ↔ a ∈ s ∧ P a := by
  show a ∈ s.toList.filter _ ↔ _
  rw [List.mem_filter, decide_eq_true_eq]
  rfl

omit [DecidableEq α] in
/-- A smaller part is read off a larger one. -/
theorem filter_toList_restrict {Q : α → Prop} [DecidablePred Q] (hQ : ∀ a, Q a → P a)
    (s : OrderedSet α) :
    (s.restrict P).toList.filter (fun a => decide (Q a))
      = s.toList.filter fun a => decide (Q a) := by
  show (s.toList.filter _).filter _ = _
  rw [List.filter_filter]
  refine List.filter_congr fun a _ => ?_
  by_cases hq : Q a
  · rw [decide_eq_true hq, decide_eq_true (hQ _ hq), Bool.and_self]
  · rw [decide_eq_false hq, Bool.false_and]

theorem restrict_insert (s : OrderedSet α) (a : α) :
    (s.insert a).restrict P = if P a then (s.restrict P).insert a else s.restrict P := by
  by_cases hmem : a ∈ s
  · rw [insert_of_mem hmem]
    split_ifs with ha
    · rw [insert_of_mem (mem_restrict.mpr ⟨hmem, ha⟩)]
    · rfl
  · have hlist : ((s.insert a).restrict P).toList
        = s.toList.filter (fun x => decide (P x)) ++ [a].filter fun x => decide (P x) := by
      show (s.insert a).toList.filter _ = _
      rw [toList_insert_of_not_mem hmem, List.filter_append]
    apply OrderedSet.ext
    rw [hlist]
    split_ifs with ha
    · have hout : a ∉ s.restrict P := fun h => hmem (mem_restrict.mp h).1
      rw [toList_insert_of_not_mem hout, List.filter_singleton, decide_eq_true ha]
      rfl
    · rw [List.filter_singleton, decide_eq_false ha]
      exact List.append_nil _

theorem restrict_erase (s : OrderedSet α) (a : α) :
    (s.erase a).restrict P = (s.restrict P).erase a := by
  apply OrderedSet.ext
  show (s.toList.erase a).filter _ = (s.toList.filter _).erase a
  rw [s.nodup.erase_eq_filter, (s.nodup.filter _).erase_eq_filter, List.filter_comm]

section Congruence

variable {s s' : OrderedSet α}

theorem restrict_insertAll_congr (xs : List α) : ∀ {s s' : OrderedSet α},
    s.restrict P = s'.restrict P → (s.insertAll xs).restrict P = (s'.insertAll xs).restrict P := by
  induction xs with
  | nil => intro s s' h; exact h
  | cons x xs ih =>
      intro s s' h
      apply @ih (s.insert x) (s'.insert x)
      rw [restrict_insert, restrict_insert, h]

theorem restrict_eraseAll_congr (xs : List α) : ∀ {s s' : OrderedSet α},
    s.restrict P = s'.restrict P → (s.eraseAll xs).restrict P = (s'.eraseAll xs).restrict P := by
  induction xs with
  | nil => intro s s' h; exact h
  | cons x xs ih =>
      intro s s' h
      apply @ih (s.erase x) (s'.erase x)
      rw [restrict_erase, restrict_erase, h]

/-- Insertions outside the part are not seen in it. -/
theorem restrict_insertAll_of_not {xs : List α} : ∀ {s : OrderedSet α}, (∀ x ∈ xs, ¬ P x) →
    (s.insertAll xs).restrict P = s.restrict P := by
  induction xs with
  | nil => intro s _; rfl
  | cons x xs ih =>
      intro s h
      refine (ih fun y hy => h y (List.mem_cons_of_mem x hy)).trans ?_
      rw [restrict_insert, if_neg (h x List.mem_cons_self)]

/-- Erasures outside the part are not seen in it. -/
theorem restrict_eraseAll_of_not {xs : List α} : ∀ {s : OrderedSet α}, (∀ x ∈ xs, ¬ P x) →
    (s.eraseAll xs).restrict P = s.restrict P := by
  induction xs with
  | nil => intro s _; rfl
  | cons x xs ih =>
      intro s h
      refine (ih fun y hy => h y (List.mem_cons_of_mem x hy)).trans ?_
      rw [restrict_erase]
      exact erase_of_not_mem fun hmem => h x List.mem_cons_self (mem_restrict.mp hmem).2

end Congruence

end OrderedSet

end OpenStreamGrid
