import Mathlib.Data.List.Nodup
import Mathlib.Logic.Function.Basic
import Mathlib.Tactic.SplitIfs

/-!
# Doubly linked lists

A list written by hand: two ends, and in every node the node before and the node
after it. `Links nodes` says that following the pointers from either end yields
exactly the given nodes; adding a node in front and taking one out keep it.
-/

namespace OpenStreamGrid

/-- The ends of a list, and the pointers of the nodes there are. -/
structure LinkedList (ν : Type*) where
  head : Option ν
  tail : Option ν
  prev : ν → Option ν
  next : ν → Option ν

namespace LinkedList

variable {ν : Type*}

def empty : LinkedList ν := ⟨none, none, fun _ => none, fun _ => none⟩

/-- Both ends are cleared, and no pointer. -/
def clear (l : LinkedList ν) : LinkedList ν := { l with head := none, tail := none }

/-- The nodes from the head to the tail. -/
structure Links (l : LinkedList ν) (nodes : List ν) : Prop where
  nodup : nodes.Nodup
  head : l.head = nodes.head?
  tail : l.tail = nodes.getLast?
  prev : ∀ before node after, nodes = before ++ node :: after → l.prev node = before.getLast?
  next : ∀ before node after, nodes = before ++ node :: after → l.next node = after.head?

/-- With both ends cleared nothing is linked, whatever the pointers still say. -/
theorem links_nil {l : LinkedList ν} (hhead : l.head = none) (htail : l.tail = none) :
    l.Links [] where
  nodup := List.nodup_nil
  head := hhead
  tail := htail
  prev before node after h := absurd h.symm (List.append_ne_nil_of_right_ne_nil _ (by simp))
  next before node after h := absurd h.symm (List.append_ne_nil_of_right_ne_nil _ (by simp))

variable [DecidableEq ν]

/-- `node.prev = value`, if there is a node. -/
def setPrev (l : LinkedList ν) (node value : Option ν) : LinkedList ν :=
  { l with prev := fun m => if node = some m then value else l.prev m }

def setNext (l : LinkedList ν) (node value : Option ν) : LinkedList ν :=
  { l with next := fun m => if node = some m then value else l.next m }

/-- A node becomes the head. -/
def prepend (l : LinkedList ν) (node : ν) : LinkedList ν :=
  let l := l.setPrev (some node) none
  let l := l.setNext (some node) l.head
  let l := l.setPrev l.head (some node)
  let l := { l with head := some node }
  if l.tail.isNone then { l with tail := some node } else l

/-- A node leaves the list. -/
def unlink (l : LinkedList ν) (node : ν) : LinkedList ν :=
  let l := l.setNext (l.prev node) (l.next node)
  let l := l.setPrev (l.next node) (l.prev node)
  let l := if l.head = some node then { l with head := l.next node } else l
  let l := if l.tail = some node then { l with tail := l.prev node } else l
  let l := l.setPrev (some node) none
  l.setNext (some node) none

variable {l : LinkedList ν} {nodes : List ν} {node : ν}

/-! ## What the two operations write -/

theorem prev_prepend (l : LinkedList ν) (node m : ν) :
    (l.prepend node).prev m =
      if l.head = some m then some node else if node = m then none else l.prev m := by
  unfold prepend
  dsimp only
  split_ifs <;> simp_all [setPrev, setNext]

theorem next_prepend (l : LinkedList ν) (node m : ν) :
    (l.prepend node).next m = if node = m then l.head else l.next m := by
  unfold prepend
  dsimp only
  split_ifs <;> simp_all [setPrev, setNext]

theorem head_prepend (l : LinkedList ν) (node : ν) : (l.prepend node).head = some node := by
  unfold prepend
  dsimp only
  split_ifs <;> rfl

theorem tail_prepend (l : LinkedList ν) (node : ν) :
    (l.prepend node).tail = some (l.tail.getD node) := by
  unfold prepend
  cases htail : l.tail <;> simp [setPrev, setNext, htail]

theorem prev_unlink (hself : l.prev node ≠ some node) (m : ν) :
    (l.unlink node).prev m =
      if node = m then none else if l.next node = some m then l.prev node else l.prev m := by
  unfold unlink
  dsimp only
  split_ifs <;> simp_all [setPrev, setNext]

theorem next_unlink (hself : l.prev node ≠ some node) (m : ν) :
    (l.unlink node).next m =
      if node = m then none else if l.prev node = some m then l.next node else l.next m := by
  unfold unlink
  dsimp only
  split_ifs <;> simp_all [setPrev, setNext]

theorem head_unlink (hself : l.prev node ≠ some node) :
    (l.unlink node).head = if l.head = some node then l.next node else l.head := by
  unfold unlink
  dsimp only
  split_ifs <;> simp_all [setPrev, setNext]

theorem tail_unlink (hself : l.next node ≠ some node) :
    (l.unlink node).tail = if l.tail = some node then l.prev node else l.tail := by
  unfold unlink
  dsimp only
  split_ifs <;> simp_all [setPrev, setNext]

/-! ## The nodes after the two operations -/

theorem Links.prepend (h : l.Links nodes) (hnew : node ∉ nodes) :
    (l.prepend node).Links (node :: nodes) where
  nodup := List.nodup_cons.mpr ⟨hnew, h.nodup⟩
  head := head_prepend l node
  tail := by
    rw [tail_prepend, h.tail]
    cases nodes with
    | nil => rfl
    | cons first rest => simp [List.getLast?_cons]
  prev before m after heq := by
    rw [prev_prepend, h.head]
    rcases before with _ | ⟨b, before⟩
    · obtain ⟨rfl, rfl⟩ := List.cons.inj heq
      have hhead : nodes.head? ≠ some node := fun hhead => hnew (List.mem_of_mem_head? hhead)
      rw [if_neg hhead, if_pos rfl]
      rfl
    · rw [List.cons_append] at heq
      obtain ⟨rfl, rfl⟩ := List.cons.inj heq
      have hm : node ≠ m := by
        rintro rfl
        exact hnew (by simp)
      rcases before with _ | ⟨first, before⟩
      · rw [List.nil_append, List.head?_cons, if_pos rfl]
        rfl
      · have hfirst : first ≠ m := by
          rintro rfl
          exact (List.nodup_cons.mp h.nodup).1 (by simp)
        rw [List.cons_append, List.head?_cons, if_neg (fun he => hfirst (Option.some.inj he)),
          if_neg hm, h.prev (first :: before) m after rfl]
        rfl
  next before m after heq := by
    rw [next_prepend]
    rcases before with _ | ⟨b, before⟩
    · obtain ⟨rfl, rfl⟩ := List.cons.inj heq
      rw [if_pos rfl, h.head]
    · obtain ⟨rfl, rfl⟩ := List.cons.inj heq
      have hm : node ≠ m := by
        rintro rfl
        exact hnew (by simp)
      rw [if_neg hm]
      exact h.next before m after rfl

omit [DecidableEq ν] in
/-- Where an element of two lists put together is. -/
theorem append_eq_split {before after before' after' : List ν} {m : ν}
    (h : before ++ after = before' ++ m :: after') :
    (∃ between, before' = before ++ between ∧ after = between ++ m :: after') ∨
      ∃ between, before = before' ++ m :: between ∧ after' = between ++ after := by
  rcases List.append_eq_append_iff.mp h with ⟨between, hbefore, hafter⟩ | ⟨between, hbefore, hafter⟩
  · exact Or.inl ⟨between, hbefore, hafter⟩
  · rcases between with _ | ⟨first, between⟩
    · rw [List.append_nil] at hbefore
      exact Or.inl ⟨[], by rw [hbefore, List.append_nil], hafter.symm⟩
    · obtain ⟨rfl, rfl⟩ := List.cons.inj hafter
      exact Or.inr ⟨between, hbefore, rfl⟩

theorem Links.unlink {before after : List ν} (h : l.Links (before ++ node :: after)) :
    (l.unlink node).Links (before ++ after) := by
  have hprev : l.prev node = before.getLast? := h.prev before node after rfl
  have hnext : l.next node = after.head? := h.next before node after rfl
  obtain ⟨hbefore, hrest, hapart⟩ := List.nodup_append.mp h.nodup
  obtain ⟨hafter, hnodup⟩ := List.nodup_cons.mp hrest
  have hout : node ∉ before := fun hmem => hapart node hmem node List.mem_cons_self rfl
  have hself : l.prev node ≠ some node := by
    rw [hprev]
    exact fun heq => hout (List.mem_of_getLast? heq)
  have hself' : l.next node ≠ some node := by
    rw [hnext]
    exact fun heq => hafter (List.mem_of_mem_head? heq)
  have hapart' : ∀ m ∈ before, m ∉ after := fun m hm hm' =>
    hapart m hm m (List.mem_cons_of_mem _ hm') rfl
  have hstays : ∀ {before' m after'}, before ++ after = before' ++ m :: after' → node ≠ m := by
    rintro before' m after' heq rfl
    have hmem : node ∈ before ++ after := by
      rw [heq]
      simp
    exact (List.mem_append.mp hmem).elim hout hafter
  constructor
  case nodup =>
    exact List.nodup_append.mpr ⟨hbefore, hnodup,
      fun m hm m' hm' => hapart m hm m' (List.mem_cons_of_mem _ hm')⟩
  case head =>
    rw [head_unlink hself, h.head, hnext]
    rcases before with _ | ⟨first, before⟩
    · exact if_pos rfl
    · have hfirst : first ≠ node := by
        rintro rfl
        exact hout List.mem_cons_self
      exact if_neg fun heq => hfirst (Option.some.inj heq)
  case tail =>
    rw [tail_unlink hself', h.tail, hprev]
    rcases List.eq_nil_or_concat' after with rfl | ⟨after, last, rfl⟩
    · rw [List.append_nil, List.getLast?_concat, if_pos rfl]
    · have hlast : last ≠ node := by
        rintro rfl
        exact hafter (by simp)
      have hend : (before ++ node :: (after ++ [last])).getLast? = some last := by
        rw [← List.cons_append, ← List.append_assoc, List.getLast?_concat]
      rw [hend, if_neg fun heq => hlast (Option.some.inj heq)]
      simp
  case prev =>
    intro before' m after' heq
    rw [prev_unlink hself, if_neg (hstays heq), hnext, hprev]
    rcases append_eq_split heq with ⟨between, rfl, rfl⟩ | ⟨between, rfl, rfl⟩
    · -- What is before `m` is the node that is gone, or another of the nodes behind it.
      rcases List.eq_nil_or_concat' between with rfl | ⟨between, last, rfl⟩
      · rw [List.nil_append, List.head?_cons, if_pos rfl, List.append_nil]
      · have hhead : (between ++ [last] ++ m :: after').head? ≠ some m := by
          intro hhead
          have hmem : m ∈ between ++ [last] := by
            rw [List.head?_append_of_ne_nil _ (by simp)] at hhead
            exact List.mem_of_mem_head? hhead
          exact (List.nodup_append.mp hnodup).2.2 m hmem m List.mem_cons_self rfl
        rw [if_neg hhead, h.prev (before ++ node :: (between ++ [last])) m after' (by simp),
          ← List.cons_append, ← List.append_assoc, List.getLast?_concat, ← List.append_assoc,
          List.getLast?_concat]
    · have hhead : after.head? ≠ some m := fun hhead =>
        hapart' m (by simp) (List.mem_of_mem_head? hhead)
      rw [if_neg hhead]
      exact h.prev before' m (between ++ node :: after) (by simp)
  case next =>
    intro before' m after' heq
    rw [next_unlink hself, if_neg (hstays heq), hnext, hprev]
    rcases append_eq_split heq with ⟨between, rfl, rfl⟩ | ⟨between, rfl, rfl⟩
    · have hlast : before.getLast? ≠ some m := fun hlast =>
        hapart' m (List.mem_of_getLast? hlast) (by simp)
      rw [if_neg hlast]
      exact h.next (before ++ node :: between) m after' (by simp)
    · rcases between with _ | ⟨first, between⟩
      · rw [List.getLast?_concat, if_pos rfl, List.nil_append]
      · have hlast : (before' ++ m :: first :: between).getLast? ≠ some m := by
          intro hlast
          have hmem : m ∈ first :: between := by
            rw [List.getLast?_append_of_ne_nil _ (by simp), List.getLast?_cons_cons] at hlast
            exact List.mem_of_getLast? hlast
          exact (List.nodup_cons.mp (List.nodup_append.mp hbefore).2.1).1 hmem
        rw [if_neg hlast, h.next before' m (first :: between ++ node :: after) (by simp)]
        rfl

end LinkedList

end OpenStreamGrid
