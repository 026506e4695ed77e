import OpenStreamGrid.Lib.TransitionSystem
import OpenStreamGrid.Tracker.NeighborViews

/-!
# The neighbor views agree with each other

The representation invariant of one broadcast, kept by links and unlinks, by the
shuffle of a fill stopped at any round, by joining and by leaving; and `FillDiff`,
what a fill does to the views.
-/

namespace OpenStreamGrid

namespace BroadcastViews

/-- The four structures describe one graph on the members. -/
structure WellFormed (size : ℕ) (b : BroadcastViews) : Prop where
  indexes : Indexes b.positions b.members
  views : ∀ p, p ∈ b.views ↔ p ∈ b.members
  watchers : ∀ p, p ∈ b.watchers ↔ p ∈ b.members
  mirror : ∀ a c, a ∈ b.watchersOf c ↔ c ∈ b.viewOf a
  irrefl : ∀ a, a ∉ b.viewOf a
  closed : ∀ a c, c ∈ b.viewOf a → c ∈ b.members
  bounded : ∀ a, (b.viewOf a).size ≤ size

theorem viewOf_of_not_mem {b : BroadcastViews} {p : PeerId} (h : p ∉ b.views) :
    b.viewOf p = ∅ := by
  rw [viewOf, OrderedMap.get?_eq_none_iff.mpr h, Option.getD_none]

theorem mem_views_of_mem_viewOf {b : BroadcastViews} {a c : PeerId} (h : c ∈ b.viewOf a) :
    a ∈ b.views := by
  by_contra hne
  rw [viewOf_of_not_mem hne] at h
  exact OrderedSet.not_mem_empty c h

theorem hasRoom_iff {b : BroadcastViews} {size : ℕ} {p : PeerId} :
    b.hasRoom size p = true ↔ (b.viewOf p).size < size := decide_eq_true_iff

/-- No member sees more peers than there are others. -/
theorem WellFormed.size_lt {size : ℕ} {b : BroadcastViews} (h : WellFormed size b) {p : PeerId}
    (hp : p ∈ b.members) : (b.viewOf p).size < b.members.length := by
  have hsub : ∀ x ∈ b.viewOf p, x ∈ b.members.erase p := fun x hx => by
    refine (List.mem_erase_of_ne ?_).mpr (h.closed p x hx)
    rintro rfl
    exact h.irrefl x hx
  have hle := OrderedSet.size_le_of_subset hsub
  rw [List.length_erase_of_mem hp] at hle
  have := List.length_pos_of_mem hp
  omega

/-- A view as large as the rest of the audience is the rest of the audience. -/
theorem WellFormed.sees_all {size : ℕ} {b : BroadcastViews} (h : WellFormed size b) {p c : PeerId}
    (hp : p ∈ b.members) (hsize : b.members.length - 1 ≤ (b.viewOf p).size) (hc : c ∈ b.members)
    (hne : c ≠ p) : c ∈ b.viewOf p := by
  have hsub : ∀ x ∈ (b.viewOf p).toList, x ∈ b.members.erase p := fun x hx => by
    refine (List.mem_erase_of_ne ?_).mpr (h.closed p x hx)
    rintro rfl
    exact h.irrefl x hx
  have hperm : (b.viewOf p).toList.Perm (b.members.erase p) := by
    refine (List.subperm_of_subset (b.viewOf p).nodup hsub).perm_of_length_le ?_
    rw [List.length_erase_of_mem hp]
    exact hsize
  exact hperm.mem_iff.mpr ((List.mem_erase_of_ne hne).mpr hc)

theorem wellFormed_empty (size : ℕ) : WellFormed size empty where
  indexes := Indexes.empty
  views _ := by simp [empty]
  watchers _ := by simp [empty]
  mirror _ _ := by simp [empty, viewOf, watchersOf]
  irrefl _ := by simp [empty, viewOf]
  closed _ _ h := by simp [empty, viewOf] at h
  bounded _ := by simp [empty, viewOf]

/-! ## Links -/

theorem getD_modify (m : OrderedMap PeerId (OrderedSet PeerId)) {k : PeerId} (hk : k ∈ m)
    (f : OrderedSet PeerId → OrderedSet PeerId) (x : PeerId) :
    ((m.modify k f).get? x).getD ∅ = if x = k then f ((m.get? k).getD ∅) else (m.get? x).getD ∅ := by
  obtain ⟨s, hs⟩ := OrderedMap.get?_of_mem hk
  rw [OrderedMap.get?_modify]
  split_ifs
  · rw [hs, Option.map_some, Option.getD_some, Option.getD_some]
  · rfl

theorem viewOf_link {b : BroadcastViews} {a : PeerId} (ha : a ∈ b.views) (c x : PeerId) :
    (b.link a c).viewOf x = if x = a then (b.viewOf a).insert c else b.viewOf x :=
  getD_modify b.views ha _ x

theorem watchersOf_link {b : BroadcastViews} {c : PeerId} (hc : c ∈ b.watchers) (a x : PeerId) :
    (b.link a c).watchersOf x = if x = c then (b.watchersOf c).insert a else b.watchersOf x :=
  getD_modify b.watchers hc _ x

theorem viewOf_unlink {b : BroadcastViews} {a : PeerId} (ha : a ∈ b.views) (c x : PeerId) :
    (b.unlink a c).viewOf x = if x = a then (b.viewOf a).erase c else b.viewOf x :=
  getD_modify b.views ha _ x

theorem watchersOf_unlink {b : BroadcastViews} {c : PeerId} (hc : c ∈ b.watchers) (a x : PeerId) :
    (b.unlink a c).watchersOf x = if x = c then (b.watchersOf c).erase a else b.watchersOf x :=
  getD_modify b.watchers hc _ x

@[simp] theorem members_link (b : BroadcastViews) (a c : PeerId) :
    (b.link a c).members = b.members := rfl

@[simp] theorem members_unlink (b : BroadcastViews) (a c : PeerId) :
    (b.unlink a c).members = b.members := rfl

theorem WellFormed.link {size : ℕ} {b : BroadcastViews} (h : WellFormed size b) {a c : PeerId}
    (ha : a ∈ b.members) (hc : c ∈ b.members) (hne : a ≠ c) (hroom : (b.viewOf a).size < size) :
    WellFormed size (b.link a c) := by
  have hview := viewOf_link ((h.views a).mpr ha) c
  have hwatch := watchersOf_link ((h.watchers c).mpr hc) a
  refine ⟨h.indexes, fun p => OrderedMap.mem_modify.trans (h.views p),
    fun p => OrderedMap.mem_modify.trans (h.watchers p), ?_, ?_, ?_, ?_⟩
  · intro x y
    have hm := h.mirror x y
    rw [hview, hwatch]
    split_ifs with hy hx hx
    · subst hx hy
      simp
    · subst hy
      rw [OrderedSet.mem_insert, hm]
      exact or_iff_left hx
    · subst hx
      rw [OrderedSet.mem_insert, hm]
      exact (or_iff_left hy).symm
    · exact hm
  · intro x
    rw [hview]
    split_ifs with hx
    · subst hx
      rw [OrderedSet.mem_insert, not_or]
      exact ⟨h.irrefl x, hne⟩
    · exact h.irrefl x
  · intro x y
    rw [hview]
    split_ifs with hx
    · rw [OrderedSet.mem_insert]
      rintro (hy | rfl)
      · exact h.closed a y hy
      · exact hc
    · exact h.closed x y
  · intro x
    rw [hview]
    split_ifs with hx
    · by_cases hmem : c ∈ b.viewOf a
      · rw [OrderedSet.insert_of_mem hmem]
        exact h.bounded a
      · rw [OrderedSet.size_insert_of_not_mem hmem]
        exact hroom
    · exact h.bounded x

theorem WellFormed.unlink {size : ℕ} {b : BroadcastViews} (h : WellFormed size b) {a c : PeerId}
    (hsees : c ∈ b.viewOf a) : WellFormed size (b.unlink a c) := by
  have hview := viewOf_unlink (mem_views_of_mem_viewOf hsees) c
  have hwatch := watchersOf_unlink ((h.watchers c).mpr (h.closed a c hsees)) a
  refine ⟨h.indexes, fun p => OrderedMap.mem_modify.trans (h.views p),
    fun p => OrderedMap.mem_modify.trans (h.watchers p), ?_, ?_, ?_, ?_⟩
  · intro x y
    have hm := h.mirror x y
    rw [hview, hwatch]
    split_ifs with hy hx hx
    · subst hx hy
      simp
    · subst hy
      rw [OrderedSet.mem_erase, hm]
      exact and_iff_left hx
    · subst hx
      rw [OrderedSet.mem_erase, hm]
      exact (and_iff_left hy).symm
    · exact hm
  · intro x
    rw [hview]
    split_ifs with hx
    · subst hx
      exact fun hmem => h.irrefl x (OrderedSet.mem_erase.mp hmem).1
    · exact h.irrefl x
  · intro x y
    rw [hview]
    split_ifs with hx
    · exact fun hmem => h.closed a y (OrderedSet.mem_erase.mp hmem).1
    · exact h.closed x y
  · intro x
    rw [hview]
    split_ifs with hx
    · have := OrderedSet.size_erase_of_mem hsees
      have := h.bounded a
      omega
    · exact h.bounded x

/-- The shuffle of a fill moves members about and touches nothing else. -/
theorem WellFormed.reorder {size : ℕ} {b : BroadcastViews} (h : WellFormed size b)
    {members : List PeerId} {positions : OrderedMap PeerId ℕ} (hperm : members.Perm b.members)
    (hindexes : Indexes positions members) :
    WellFormed size { b with members := members, positions := positions } where
  indexes := hindexes
  views p := (h.views p).trans hperm.mem_iff.symm
  watchers p := (h.watchers p).trans hperm.mem_iff.symm
  mirror := h.mirror
  irrefl := h.irrefl
  closed a c hc := hperm.mem_iff.mpr (h.closed a c hc)
  bounded := h.bounded

/-! ## Joining and leaving -/

theorem getD_set_empty {m : OrderedMap PeerId (OrderedSet PeerId)} {k : PeerId} (hk : k ∉ m)
    (x : PeerId) : ((m.set k ∅).get? x).getD ∅ = (m.get? x).getD ∅ := by
  rw [OrderedMap.get?_set]
  split_ifs with hx
  · rw [hx, OrderedMap.get?_eq_none_iff.mpr hk, Option.getD_some, Option.getD_none]
  · rfl

theorem WellFormed.viewOf_add {size : ℕ} {b : BroadcastViews} (h : WellFormed size b)
    (p x : PeerId) : (b.add p).viewOf x = b.viewOf x := by
  unfold BroadcastViews.add
  split_ifs with hp
  · rfl
  · exact getD_set_empty (fun hv => hp (h.indexes.mem_iff.mpr ((h.views p).mp hv))) x

theorem WellFormed.mem_members_add {size : ℕ} {b : BroadcastViews} (h : WellFormed size b)
    (p x : PeerId) : x ∈ (b.add p).members ↔ x ∈ b.members ∨ x = p := by
  unfold BroadcastViews.add
  split_ifs with hp
  · constructor
    · exact Or.inl
    · rintro (hx | rfl)
      · exact hx
      · exact h.indexes.mem_iff.mp hp
  · rw [List.mem_append, List.mem_singleton]

theorem WellFormed.add {size : ℕ} {b : BroadcastViews} (h : WellFormed size b) (p : PeerId) :
    WellFormed size (b.add p) := by
  by_cases hp : p ∈ b.positions
  · rw [BroadcastViews.add, if_pos hp]
    exact h
  have hnew : p ∉ b.members := fun hm => hp (h.indexes.mem_iff.mpr hm)
  have hview := h.viewOf_add p
  have hmem := h.mem_members_add p
  have hwatch : ∀ x, (b.add p).watchersOf x = b.watchersOf x := by
    intro x
    rw [BroadcastViews.add, if_neg hp]
    exact getD_set_empty (fun hw => hnew ((h.watchers p).mp hw)) x
  refine ⟨?_, ?_, ?_, ?_, ?_, ?_, ?_⟩
  · rw [BroadcastViews.add, if_neg hp]
    exact h.indexes.push hnew
  · intro x
    rw [hmem, BroadcastViews.add, if_neg hp, OrderedMap.mem_set, h.views]
  · intro x
    rw [hmem, BroadcastViews.add, if_neg hp, OrderedMap.mem_set, h.watchers]
  · intro x y
    rw [hview, hwatch]
    exact h.mirror x y
  · intro x
    rw [hview]
    exact h.irrefl x
  · intro x y hy
    rw [hview] at hy
    exact (hmem y).mpr (Or.inl (h.closed x y hy))
  · intro x
    rw [hview]
    exact h.bounded x

/-- Erasing `p` from the sets of several keys, one after another. -/
theorem getD_eraseEach (p x : PeerId) : ∀ (keys : List PeerId)
    (m : OrderedMap PeerId (OrderedSet PeerId)) (y : PeerId),
    y ∈ ((keys.foldl (fun ms key => ms.modify key (·.erase p)) m).get? x).getD ∅ ↔
      y ∈ (m.get? x).getD ∅ ∧ ¬ (x ∈ keys ∧ y = p)
  | [], _, _ => by simp
  | key :: keys, m, y => by
      rw [List.foldl_cons, getD_eraseEach p x keys]
      by_cases hx : x = key
      · subst hx
        rw [OrderedMap.get?_modify, if_pos rfl]
        cases m.get? x with
        | none => simp
        | some s =>
            simp only [Option.map_some, Option.getD_some, OrderedSet.mem_erase,
              List.mem_cons, true_or, true_and]
            tauto
      · rw [OrderedMap.get?_modify, if_neg hx, List.mem_cons, or_iff_right hx]

theorem mem_eraseEach (p x : PeerId) : ∀ (keys : List PeerId)
    (m : OrderedMap PeerId (OrderedSet PeerId)),
    x ∈ keys.foldl (fun ms key => ms.modify key (·.erase p)) m ↔ x ∈ m
  | [], _ => Iff.rfl
  | key :: keys, m => by
      rw [List.foldl_cons, mem_eraseEach p x keys, OrderedMap.mem_modify]

/-- Dropping a member from the indexed member list. -/
theorem dropMember_spec {b : BroadcastViews} {p : PeerId} {position : ℕ}
    (h : Indexes b.positions b.members) (hp : b.positions.get? p = some position) :
    ∃ members positions, b.dropMember p position = { b with members, positions } ∧
      Indexes positions members ∧ (∀ x, x ∈ members ↔ x ∈ b.members ∧ x ≠ p) ∧
      members.length + 1 = b.members.length := by
  have hmem : p ∈ b.members := h.mem_iff.mp (OrderedMap.mem_of_get? hp)
  have hpos := List.length_pos_of_mem hmem
  obtain ⟨last, hlast⟩ := Option.ne_none_iff_exists'.mp
    (mt List.getLast?_eq_none_iff.mp (List.ne_nil_of_mem hmem))
  have hlastmem : last ∈ b.members := List.mem_of_getLast? hlast
  unfold dropMember
  rw [hlast]
  by_cases hne : last = p
  · subst hne
    refine ⟨_, _, if_neg (not_not_intro rfl), h.pop hlast, fun x => ?_, ?_⟩
    · rw [← (h.pop hlast).mem_iff, OrderedMap.mem_delete, h.mem_iff]
    · rw [List.length_dropLast]
      omega
  · refine ⟨_, _, if_pos hne, h.swapRemove hp hlast hne, fun x => ?_, ?_⟩
    · rw [← (h.swapRemove hp hlast hne).mem_iff, OrderedMap.mem_delete, OrderedMap.mem_set,
        h.mem_iff]
      constructor
      · rintro ⟨hx | rfl, hxp⟩
        · exact ⟨hx, hxp⟩
        · exact ⟨hlastmem, hxp⟩
      · rintro ⟨hx, hxp⟩
        exact ⟨Or.inl hx, hxp⟩
    · rw [List.length_set, List.length_dropLast]
      omega

/-- What leaving does: `left` are the views without `p`, `lost` its watchers. -/
structure LeaveDiff (size : ℕ) (b : BroadcastViews) (p : PeerId) (left : BroadcastViews)
    (lost : List PeerId) : Prop where
  wf : WellFormed size left
  members : ∀ x, x ∈ left.members ↔ x ∈ b.members ∧ x ≠ p
  length : left.members.length + 1 = b.members.length
  sees : ∀ a x, x ∈ left.viewOf a ↔ x ∈ b.viewOf a ∧ a ≠ p ∧ x ≠ p
  lost_iff : ∀ a, a ∈ lost ↔ p ∈ b.viewOf a
  nodup : lost.Nodup

/-- Those whose view contained the leaving peer stay. -/
theorem LeaveDiff.mem_of_lost {size : ℕ} {b left : BroadcastViews} {p c : PeerId}
    {lost : List PeerId} (hdiff : LeaveDiff size b p left lost) (h : WellFormed size b)
    (hc : c ∈ lost) : c ∈ left.members := by
  have hview := (hdiff.lost_iff c).mp hc
  refine (hdiff.members c).mpr ⟨(h.views c).mp (mem_views_of_mem_viewOf hview), ?_⟩
  rintro rfl
  exact h.irrefl c hview

theorem WellFormed.leave {size : ℕ} {b : BroadcastViews} (h : WellFormed size b) {p : PeerId}
    (hp : p ∈ b.members) : LeaveDiff size b p (b.leave p).1 (b.leave p).2 := by
  obtain ⟨position, hpos⟩ := OrderedMap.get?_of_mem (h.indexes.mem_iff.mpr hp)
  unfold BroadcastViews.leave
  rw [hpos]
  dsimp only
  set watchers := (b.viewOf p).toList.foldl
    (fun ws neighbor => ws.modify neighbor (·.erase p)) b.watchers with hwatchers
  set lost := ((watchers.get? p).getD ∅).toList with hlost
  set views := lost.foldl (fun vs watcher => vs.modify watcher (·.erase p)) b.views with hviews
  have hwatch : ∀ x y, x ∈ (watchers.get? y).getD ∅ ↔ y ∈ b.viewOf x ∧ x ≠ p := by
    intro x y
    rw [hwatchers, getD_eraseEach, OrderedSet.mem_toList]
    have hm := h.mirror x y
    unfold watchersOf at hm
    rw [hm]
    constructor
    · rintro ⟨hy, hnot⟩
      exact ⟨hy, fun e => hnot ⟨e ▸ hy, e⟩⟩
    · rintro ⟨hy, hne⟩
      exact ⟨hy, fun hxy => hne hxy.2⟩
  have hlostIff : ∀ a, a ∈ lost ↔ p ∈ b.viewOf a := by
    intro a
    rw [hlost, OrderedSet.mem_toList, hwatch]
    constructor
    · exact And.left
    · intro ha
      refine ⟨ha, ?_⟩
      rintro rfl
      exact h.irrefl a ha
  have hview : ∀ a x, x ∈ (views.get? a).getD ∅ ↔ x ∈ b.viewOf a ∧ x ≠ p := by
    intro a x
    rw [hviews, getD_eraseEach, hlostIff]
    constructor
    · rintro ⟨hx, hnot⟩
      exact ⟨hx, fun e => hnot ⟨e ▸ hx, e⟩⟩
    · rintro ⟨hx, hne⟩
      exact ⟨hx, fun hax => hne hax.2⟩
  obtain ⟨members, positions, hdrop, hindexes, hmembers, hlength⟩ :=
    dropMember_spec (b := { b with views := views.delete p, watchers := watchers.delete p })
      h.indexes hpos
  rw [hdrop]
  have hsees : ∀ a x, x ∈ ((views.delete p).get? a).getD ∅ ↔ x ∈ b.viewOf a ∧ a ≠ p ∧ x ≠ p := by
    intro a x
    rw [OrderedMap.get?_delete]
    split_ifs with ha
    · simp [ha]
    · rw [hview]
      simp [ha]
  refine ⟨⟨hindexes, ?_, ?_, ?_, ?_, ?_, ?_⟩, hmembers, hlength, hsees, hlostIff,
    OrderedSet.nodup _⟩
  · intro x
    rw [OrderedMap.mem_delete, hviews, mem_eraseEach, h.views, hmembers]
  · intro x
    rw [OrderedMap.mem_delete, hwatchers, mem_eraseEach, h.watchers, hmembers]
  · intro x y
    unfold viewOf watchersOf
    rw [hsees, OrderedMap.get?_delete]
    split_ifs with hy
    · simp [hy]
    · rw [hwatch]
      simp [hy]
  · intro x hx
    exact h.irrefl x ((hsees x x).mp hx).1
  · intro x y hy
    obtain ⟨hmem, -, hne⟩ := (hsees x y).mp hy
    exact (hmembers y).mpr ⟨h.closed x y hmem, hne⟩
  · intro x
    refine le_trans (OrderedSet.size_le_of_subset fun y hy => ?_) (h.bounded x)
    exact ((hsees x y).mp hy).1

theorem leave_of_not_mem {b : BroadcastViews} {p : PeerId} (hp : p ∉ b.positions) :
    b.leave p = (b, []) := by
  unfold BroadcastViews.leave
  rw [OrderedMap.get?_eq_none_iff.mpr hp]

end BroadcastViews

/-! ## The sampling loop -/

namespace Sampling

variable {b : BroadcastViews} {size : ℕ} {p : PeerId}

/-- Neither the filled peer nor one of its neighbors. -/
def IsCandidate (b : BroadcastViews) (p c : PeerId) : Prop := c ≠ p ∧ c ∉ b.viewOf p

instance (b : BroadcastViews) (p c : PeerId) : Decidable (IsCandidate b p c) :=
  inferInstanceAs (Decidable (_ ∧ _))

/-- After `index` rounds the first `index` members have been examined, and the
candidates among them are collected. -/
structure Examined (b : BroadcastViews) (p : PeerId) (index : ℕ) (s : Sampling) : Prop where
  perm : s.members.Perm b.members
  indexes : Indexes s.positions s.members
  candidates : (s.withRoom ++ s.full).Perm
    ((s.members.take index).filter fun c => decide (IsCandidate b p c))

theorem Examined.examine {index : ℕ} {s : Sampling} (h : Examined b p index s) (size : ℕ)
    (hlt : index < s.members.length) : Examined b p (index + 1) (s.examine b size p index) := by
  have hdraw : s.random.head.index (s.members.length - index) < s.members.length - index :=
    Draw.index_lt _ (by omega)
  unfold Sampling.examine
  dsimp only
  set swap := index + s.random.head.index (s.members.length - index) with hswap
  have hswaplt : swap < s.members.length := by omega
  have hle : index ≤ swap := Nat.le_add_right _ _
  have hi := List.getElem?_eq_getElem hlt
  have hj := List.getElem?_eq_getElem hswaplt
  rw [hi, hj]
  dsimp only
  set candidate := s.members[swap] with hcandidate
  set displaced := s.members[index] with hdisplaced
  have hperm := (perm_exchange hi hj).trans h.perm
  have hindexes := h.indexes.exchange hi hj
  have htake := take_exchange hi hj hle
  -- the round moves the candidate to the end of the examined prefix
  split_ifs with hskip hroom
  · refine ⟨hperm, hindexes, ?_⟩
    rw [htake, List.filter_append, List.filter_singleton]
    have hnot : ¬ IsCandidate b p candidate := fun hc => hskip.elim hc.1 hc.2
    simpa [hnot] using h.candidates
  · refine ⟨hperm, hindexes, ?_⟩
    rw [htake, List.filter_append, List.filter_singleton]
    have hcand : IsCandidate b p candidate := not_or.mp hskip
    have hmove : (s.withRoom ++ [candidate] ++ s.full).Perm
        (s.withRoom ++ s.full ++ [candidate]) := by
      rw [List.append_assoc, List.append_assoc]
      exact List.perm_append_comm.append_left _
    simpa [hcand] using hmove.trans (h.candidates.append_right [candidate])
  · refine ⟨hperm, hindexes, ?_⟩
    rw [htake, List.filter_append, List.filter_singleton, ← List.append_assoc]
    have hcand : IsCandidate b p candidate := not_or.mp hskip
    simpa [hcand] using h.candidates.append_right [candidate]

/-- Where the sampling loop may stop. -/
def Stopped (wanted budget index : ℕ) (s : Sampling) : Prop :=
  index = s.members.length ∨ wanted ≤ s.withRoom.length ∨ budget ≤ index

theorem Examined.run (size wanted budget : ℕ) : ∀ {rounds index : ℕ} {s : Sampling},
    Examined b p index s → index ≤ s.members.length → s.members.length ≤ index + rounds →
    ∃ stop, stop ≤ b.members.length ∧
      Examined b p stop (run b size p wanted budget rounds index s) ∧
      Stopped wanted budget stop (run b size p wanted budget rounds index s)
  | 0, index, s, h, hle, hge =>
      ⟨index, h.perm.length_eq ▸ hle, h, Or.inl (le_antisymm hle hge)⟩
  | rounds + 1, index, s, h, hle, hge => by
      unfold Sampling.run
      split_ifs with hgo
      · have hnext := h.examine size hgo.1
        have hlen : (s.examine b size p index).members.length = s.members.length :=
          hnext.perm.length_eq.trans h.perm.length_eq.symm
        exact hnext.run size wanted budget (by omega) (by omega)
      · refine ⟨index, h.perm.length_eq ▸ hle, h, ?_⟩
        unfold Stopped
        by_contra hnot
        simp only [not_or, not_le] at hnot
        exact hgo ⟨lt_of_le_of_ne hle hnot.1, hnot.2⟩

/-- The skipped ones among distinct members are the peer and its neighbors. -/
theorem length_le_candidates {xs : List PeerId} (hnd : xs.Nodup) :
    xs.length ≤
      (xs.filter fun c => decide (IsCandidate b p c)).length + ((b.viewOf p).size + 1) := by
  have hsplit := List.length_eq_length_filter_add (l := xs) fun c => decide (IsCandidate b p c)
  have hskipped : (xs.filter fun c => !decide (IsCandidate b p c)).length
      ≤ (p :: (b.viewOf p).toList).length := by
    refine (List.subperm_of_subset (hnd.filter _) fun c hc => ?_).length_le
    have hnot : ¬ IsCandidate b p c := by simpa using (List.mem_filter.mp hc).2
    by_cases hcp : c = p
    · exact hcp ▸ List.mem_cons_self
    · exact List.mem_cons_of_mem _ (by
        by_contra hview
        exact hnot ⟨hcp, hview⟩)
  rw [List.length_cons] at hskipped
  have : (b.viewOf p).toList.length = (b.viewOf p).size := rfl
  omega

end Sampling

/-- What the sampling loop hands to the linking loop: distinct candidates, as
many as the view has room for unless there are no more. -/
structure SampleSpec (size : ℕ) (b : BroadcastViews) (p : PeerId) (s : Sampling) : Prop where
  perm : s.members.Perm b.members
  indexes : Indexes s.positions s.members
  nodup : (s.withRoom ++ s.full).Nodup
  candidate : ∀ c ∈ s.withRoom ++ s.full, c ∈ b.members ∧ Sampling.IsCandidate b p c
  enough : min size (b.members.length - 1) ≤ (b.viewOf p).size + (s.withRoom ++ s.full).length

theorem BroadcastViews.WellFormed.sample {size : ℕ} {b : BroadcastViews} (h : b.WellFormed size)
    (random : Stream' Draw) (p : PeerId) : SampleSpec size b p (b.sample size random p) := by
  have hstart : Sampling.Examined b p 0 ⟨b.members, b.positions, [], [], random⟩ :=
    ⟨.refl _, h.indexes, .refl _⟩
  obtain ⟨stop, hle, hexamined, hstopped⟩ := hstart.run size
    (size - (b.viewOf p).size)
    ((b.viewOf p).size + 1 + max ((size - (b.viewOf p).size) * 8) 64)
    (Nat.zero_le _) (Nat.zero_add b.members.length).ge
  change SampleSpec size b p (Sampling.run b size p _ _ _ 0 _)
  set s := Sampling.run b size p (size - (b.viewOf p).size)
    ((b.viewOf p).size + 1 + max ((size - (b.viewOf p).size) * 8) 64) b.members.length 0
    ⟨b.members, b.positions, [], [], random⟩ with hs
  have hnd : (s.members.take stop).Nodup :=
    (List.take_sublist _ _).nodup hexamined.indexes.nodup
  have hlen := hexamined.perm.length_eq
  have hcount := Sampling.length_le_candidates (b := b) (p := p) hnd
  rw [← hexamined.candidates.length_eq, List.length_take, hlen, min_eq_left hle] at hcount
  refine ⟨hexamined.perm, hexamined.indexes,
    hexamined.candidates.nodup_iff.mpr (hnd.filter _), ?_, ?_⟩
  · intro c hc
    obtain ⟨hmem, hcand⟩ := List.mem_filter.mp (hexamined.candidates.mem_iff.mp hc)
    exact ⟨hexamined.perm.mem_iff.mp (List.mem_of_mem_take hmem), of_decide_eq_true hcand⟩
  · rcases hstopped with hall | hroom | hbudget
    · omega
    · rw [List.length_append]
      omega
    · omega

/-! ## The linking loop -/

/-- What a fill of `p` does to the views `b`, step by step of its linking loop.
Evictions only ever take a link of a peer that links back to `p` instead. -/
structure FillDiff (size : ℕ) (b : BroadcastViews) (p : PeerId) (l : Linking) : Prop where
  wf : l.views.WellFormed size
  members : l.views.members.Perm b.members
  sees : ∀ a x, x ∈ l.views.viewOf a ↔
    x ∈ b.viewOf a ∧ ⟨a, x⟩ ∉ l.result.evicted ∨
      a = p ∧ x ∈ l.result.added ∨ x = p ∧ a ∈ l.result.reciprocal
  added : ∀ c ∈ l.result.added, c ∈ b.members ∧ Sampling.IsCandidate b p c
  reciprocal : ∀ c ∈ l.result.reciprocal, c ∈ l.result.added ∧ p ∉ b.viewOf c
  evicted : ∀ e ∈ l.result.evicted,
    e.watcher ∈ l.result.reciprocal ∧ e.peerId ∈ b.viewOf e.watcher
  linkedBack : ∀ c ∈ l.result.added, p ∈ l.views.viewOf c
  size_self : (l.views.viewOf p).size = (b.viewOf p).size + l.result.added.length
  size_other : ∀ c, c ≠ p → (l.views.viewOf c).size =
    if c ∈ l.result.reciprocal then min size ((b.viewOf c).size + 1) else (b.viewOf c).size

namespace FillDiff

variable {size : ℕ} {b : BroadcastViews} {p c : PeerId} {l : Linking}

/-- A fill that links nobody. -/
theorem refl {views : BroadcastViews} (h : views.WellFormed size)
    (hperm : views.members.Perm b.members) (hview : ∀ a, views.viewOf a = b.viewOf a)
    (random : Stream' Draw) : FillDiff size b p ⟨views, random, .none⟩ where
  wf := h
  members := hperm
  sees a x := by simp [NeighborViewFill.none, hview]
  added _ hc := absurd hc List.not_mem_nil
  reciprocal _ hc := absurd hc List.not_mem_nil
  evicted _ he := absurd he List.not_mem_nil
  linkedBack _ hc := absurd hc List.not_mem_nil
  size_self := by simp [NeighborViewFill.none, hview]
  size_other c _ := by simp [NeighborViewFill.none, hview]

/-- The linking loop may connect `c` next. -/
structure Next (size : ℕ) (b : BroadcastViews) (p : PeerId) (l : Linking) (c : PeerId) :
    Prop where
  member : c ∈ b.members
  candidate : Sampling.IsCandidate b p c
  new : c ∉ l.result.added
  room : (l.views.viewOf p).size < size
  self : p ∈ b.members

variable (h : FillDiff size b p l) (hc : Next size b p l c)
include h hc

private theorem not_reciprocal : c ∉ l.result.reciprocal :=
  fun hr => hc.new (h.reciprocal c hr).1

private theorem not_evicted (x : PeerId) : ⟨c, x⟩ ∉ l.result.evicted :=
  fun he => h.not_reciprocal hc (h.evicted _ he).1

/-- The view of a candidate is untouched before its turn. -/
private theorem sees_candidate (x : PeerId) : x ∈ l.views.viewOf c ↔ x ∈ b.viewOf c := by
  rw [h.sees]
  simp [h.not_evicted hc, h.not_reciprocal hc, hc.candidate.1]

private theorem size_candidate : (l.views.viewOf c).size = (b.viewOf c).size := by
  rw [h.size_other c hc.candidate.1, if_neg (h.not_reciprocal hc)]

private theorem not_seen : c ∉ l.views.viewOf p := by
  rw [h.sees]
  rintro (⟨hmem, -⟩ | ⟨-, hadd⟩ | ⟨hcp, -⟩)
  · exact hc.candidate.2 hmem
  · exact hc.new hadd
  · exact hc.candidate.1 hcp

private theorem member_self : p ∈ l.views.members := h.members.mem_iff.mpr hc.self

private theorem member_candidate : c ∈ l.views.members := h.members.mem_iff.mpr hc.member

private theorem wf_link : (l.views.link p c).WellFormed size :=
  h.wf.link (h.member_self hc) (h.member_candidate hc) hc.candidate.1.symm hc.room

private theorem viewOf_link (x : PeerId) : (l.views.link p c).viewOf x =
    if x = p then (l.views.viewOf p).insert c else l.views.viewOf x :=
  BroadcastViews.viewOf_link ((h.wf.views p).mpr (h.member_self hc)) c x

private theorem viewOf_link_candidate :
    (l.views.link p c).viewOf c = l.views.viewOf c := by
  rw [h.viewOf_link hc, if_neg hc.candidate.1]

/-- The candidate already sees `p`: one link. -/
private theorem connect_linkedBack (hsees : p ∈ b.viewOf c) (random : Stream' Draw) :
    FillDiff size b p ⟨l.views.link p c, random,
      { l.result with added := l.result.added ++ [c] }⟩ where
  wf := h.wf_link hc
  members := h.members
  sees a x := by
    rw [h.viewOf_link hc]
    have hold := h.sees a x
    split_ifs with ha
    · subst ha
      simp only [OrderedSet.mem_insert, hold, List.mem_append, List.mem_singleton]
      tauto
    · simp only [hold, ha, false_and, false_or]
  added x hx := by
    rcases List.mem_append.mp hx with hx | hx
    · exact h.added x hx
    · rw [List.mem_singleton.mp hx]
      exact ⟨hc.member, hc.candidate⟩
  reciprocal x hx := ⟨List.mem_append_left _ (h.reciprocal x hx).1, (h.reciprocal x hx).2⟩
  evicted := h.evicted
  linkedBack x hx := by
    have hxp : x ≠ p := by
      rcases List.mem_append.mp hx with hx | hx
      · exact (h.added x hx).2.1
      · rw [List.mem_singleton.mp hx]
        exact hc.candidate.1
    rw [h.viewOf_link hc, if_neg hxp]
    rcases List.mem_append.mp hx with hx | hx
    · exact h.linkedBack x hx
    · rw [List.mem_singleton.mp hx]
      exact (h.sees_candidate hc p).mpr hsees
  size_self := by
    rw [h.viewOf_link hc, if_pos rfl, OrderedSet.size_insert_of_not_mem (h.not_seen hc),
      h.size_self, List.length_append, List.length_singleton, add_assoc]
  size_other x hx := by
    rw [h.viewOf_link hc, if_neg hx]
    exact h.size_other x hx

/-- Both links, after the candidate has dropped what `dropped` lists. -/
private theorem connect_reciprocal (hsees : p ∉ b.viewOf c) (views : BroadcastViews)
    (dropped : List PeerId) (random : Stream' Draw)
    (hwf : views.WellFormed size) (hperm : views.members.Perm b.members)
    (hdropped : ∀ d ∈ dropped, d ∈ b.viewOf c)
    (hother : ∀ x, x ≠ c → views.viewOf x = (l.views.link p c).viewOf x)
    (hview : ∀ x, x ∈ views.viewOf c ↔ x ∈ b.viewOf c ∧ x ∉ dropped ∨ x = p)
    (hsize : (views.viewOf c).size = min size ((b.viewOf c).size + 1)) :
    FillDiff size b p ⟨views, random,
      { added := l.result.added ++ [c]
        reciprocal := l.result.reciprocal ++ [c]
        evicted := l.result.evicted ++ dropped.map (Eviction.mk c) }⟩ where
  wf := hwf
  members := hperm
  sees a x := by
    simp only [List.mem_append, List.mem_singleton, List.mem_map, Eviction.mk.injEq]
    have hold := h.sees a x
    by_cases hac : a = c
    · subst hac
      have hnot := h.not_evicted hc x
      have hnotr := h.not_reciprocal hc
      simp only [hview, hnot, hnotr, hc.candidate.1, true_and, false_or, false_and, or_true,
        and_true, exists_eq_right]
    · have hne : ¬ ∃ d, d ∈ dropped ∧ c = a ∧ d = x := fun ⟨_, _, e, _⟩ => hac e.symm
      rw [hother a hac, h.viewOf_link hc]
      simp only [hne, hac, or_false]
      split_ifs with hap
      · subst hap
        rw [OrderedSet.mem_insert, hold]
        tauto
      · rw [hold]
        simp only [hap, false_and, false_or]
  added x hx := by
    rcases List.mem_append.mp hx with hx | hx
    · exact h.added x hx
    · rw [List.mem_singleton.mp hx]
      exact ⟨hc.member, hc.candidate⟩
  reciprocal x hx := by
    rcases List.mem_append.mp hx with hx | hx
    · exact ⟨List.mem_append_left _ (h.reciprocal x hx).1, (h.reciprocal x hx).2⟩
    · rw [List.mem_singleton.mp hx]
      exact ⟨List.mem_append_right _ List.mem_cons_self, hsees⟩
  evicted e he := by
    rcases List.mem_append.mp he with he | he
    · exact ⟨List.mem_append_left _ (h.evicted e he).1, (h.evicted e he).2⟩
    · obtain ⟨d, hd, rfl⟩ := List.mem_map.mp he
      exact ⟨List.mem_append_right _ List.mem_cons_self, hdropped d hd⟩
  linkedBack x hx := by
    by_cases hxc : x = c
    · rw [hxc, hview]
      exact Or.inr rfl
    · have hold : x ∈ l.result.added := by simpa [hxc] using hx
      rw [hother x hxc, h.viewOf_link hc, if_neg (h.added x hold).2.1]
      exact h.linkedBack x hold
  size_self := by
    rw [hother p hc.candidate.1.symm, h.viewOf_link hc, if_pos rfl,
      OrderedSet.size_insert_of_not_mem (h.not_seen hc), h.size_self, List.length_append,
      List.length_singleton, add_assoc]
  size_other x hx := by
    by_cases hxc : x = c
    · rw [hxc, hsize, if_pos (List.mem_append_right _ List.mem_cons_self)]
    · rw [hother x hxc, h.viewOf_link hc, if_neg hx, h.size_other x hx]
      simp [hxc]

/-- One round of the linking loop. -/
theorem connect : FillDiff size b p (l.connect size p c) := by
  have hcp := hc.candidate.1
  have hwf := h.wf_link hc
  have hpview : p ∈ (l.views.link p c).viewOf c ↔ p ∈ b.viewOf c := by
    rw [h.viewOf_link_candidate hc, h.sees_candidate hc]
  have hsizec : ((l.views.link p c).viewOf c).size = (b.viewOf c).size := by
    rw [h.viewOf_link_candidate hc, h.size_candidate hc]
  have hcview : c ∈ (l.views.link p c).views := (hwf.views c).mpr (h.member_candidate hc)
  unfold Linking.connect
  dsimp only
  split_ifs with hsees hroom
  · exact h.connect_linkedBack hc (hpview.mp hsees) _
  · -- the candidate has room: nothing is dropped
    have hroom' := BroadcastViews.hasRoom_iff.mp hroom
    have hview := BroadcastViews.viewOf_link hcview p
    have hnew : p ∉ b.viewOf c := mt hpview.mpr hsees
    have hdiff := h.connect_reciprocal hc hnew ((l.views.link p c).link c p) [] l.random
      (hwf.link (h.member_candidate hc) (h.member_self hc) hcp hroom') h.members
      (fun d hd => absurd hd List.not_mem_nil) (fun x hx => by rw [hview, if_neg hx])
      (fun x => by
        rw [hview, if_pos rfl, OrderedSet.mem_insert, h.viewOf_link_candidate hc,
          h.sees_candidate hc]
        simp)
      (by
        rw [hview, if_pos rfl, OrderedSet.size_insert_of_not_mem hsees, hsizec]
        omega)
    simpa using hdiff
  · -- a full view drops a random neighbor
    have hfull : size ≤ ((l.views.link p c).viewOf c).size :=
      not_lt.mp (mt BroadcastViews.hasRoom_iff.mpr hroom)
    have hpos : 0 < ((l.views.link p c).viewOf c).size :=
      lt_of_lt_of_le (lt_of_le_of_lt (Nat.zero_le _) hc.room) hfull
    have hidx := l.random.head.index_lt hpos
    cases hdrop : (l.views.link p c).randomNeighbor l.random.head c with
    | none =>
        have := List.getElem?_eq_none_iff.mp hdrop
        exact absurd hidx (not_lt.mpr this)
    | some dropped =>
        have hmem : dropped ∈ (l.views.link p c).viewOf c := List.mem_of_getElem? hdrop
        have hdb : dropped ∈ b.viewOf c := by
          rwa [h.viewOf_link_candidate hc, h.sees_candidate hc] at hmem
        have hnew : p ∉ b.viewOf c := mt hpview.mpr hsees
        set unlinked := (l.views.link p c).unlink c dropped with hunlinked
        have hwf' : unlinked.WellFormed size := hwf.unlink hmem
        have hu := BroadcastViews.viewOf_unlink hcview dropped
        have hcview' : c ∈ unlinked.views := (hwf'.views c).mpr (h.member_candidate hc)
        have hview := BroadcastViews.viewOf_link hcview' p
        have hsizeu := OrderedSet.size_erase_of_mem hmem
        have hsizeu' : (unlinked.viewOf c).size + 1 = ((l.views.link p c).viewOf c).size := by
          rw [hunlinked, hu, if_pos rfl]
          exact hsizeu
        have hbound := hwf.bounded c
        have hpu : p ∉ unlinked.viewOf c := by
          rw [hunlinked, hu, if_pos rfl]
          exact fun hp => hsees (OrderedSet.mem_erase.mp hp).1
        have hdiff := h.connect_reciprocal hc hnew (unlinked.link c p) [dropped] l.random.tail
          (hwf'.link (h.member_candidate hc) (h.member_self hc) hcp (by omega)) h.members
          (fun d hd => by rwa [List.mem_singleton.mp hd])
          (fun x hx => by rw [hview, if_neg hx, hunlinked, hu, if_neg hx])
          (fun x => by
            rw [hview, if_pos rfl, OrderedSet.mem_insert, hunlinked, hu, if_pos rfl,
              OrderedSet.mem_erase, h.viewOf_link_candidate hc, h.sees_candidate hc,
              List.mem_singleton])
          (by
            rw [hview, if_pos rfl, OrderedSet.size_insert_of_not_mem hpu]
            omega)
        exact hdiff

omit h hc in
theorem added_connect (l : Linking) (c : PeerId) :
    (l.connect size p c).result.added = l.result.added ++ [c] := by
  unfold Linking.connect
  dsimp only
  split_ifs
  · rfl
  · rfl
  · cases (l.views.link p c).randomNeighbor l.random.head c <;> rfl

omit h hc in
/-- The linking loop over distinct new candidates fills the view or uses them up. -/
theorem run (hp : p ∈ b.members) : ∀ {cs : List PeerId} {l : Linking}, FillDiff size b p l →
    cs.Nodup → (∀ c ∈ cs, c ∈ b.members ∧ Sampling.IsCandidate b p c) →
    (∀ c ∈ cs, c ∉ l.result.added) →
    FillDiff size b p (Linking.run size p cs l) ∧
      (size ≤ ((Linking.run size p cs l).views.viewOf p).size ∨
        (Linking.run size p cs l).result.added = l.result.added ++ cs)
  | [], l, h, _, _, _ => ⟨h, Or.inr (List.append_nil _).symm⟩
  | c :: cs, l, h, hnd, hcand, hnew => by
      unfold Linking.run
      split_ifs with hfull
      · exact ⟨h, Or.inl hfull⟩
      obtain ⟨hc, hcs⟩ := List.nodup_cons.mp hnd
      have hnext : Next size b p l c :=
        ⟨(hcand c List.mem_cons_self).1, (hcand c List.mem_cons_self).2,
          hnew c List.mem_cons_self, not_le.mp hfull, hp⟩
      have hadded : (l.connect size p c).result.added = l.result.added ++ [c] :=
        added_connect l c
      have hrest := run hp (h.connect hnext) hcs
        (fun x hx => hcand x (List.mem_cons_of_mem _ hx))
        (fun x hx => by
          rw [hadded, List.mem_append, List.mem_singleton, not_or]
          exact ⟨hnew x (List.mem_cons_of_mem _ hx), fun e => hc (e ▸ hx)⟩)
      rw [hadded, List.append_assoc, List.singleton_append] at hrest
      exact hrest

omit h hc in
/-- A fill never takes a neighbor away from anyone without giving another. -/
theorem size_le (h : FillDiff size b p l) (hb : b.WellFormed size) (x : PeerId) :
    (b.viewOf x).size ≤ (l.views.viewOf x).size := by
  by_cases hx : x = p
  · rw [hx, h.size_self]
    exact Nat.le_add_right _ _
  · rw [h.size_other x hx]
    have := hb.bounded x
    split_ifs <;> omega

end FillDiff

namespace BroadcastViews

variable {size : ℕ} {b : BroadcastViews}

theorem WellFormed.fill (h : b.WellFormed size) (random : Stream' Draw) (p : PeerId) :
    FillDiff size b p (b.fill size random p) := by
  unfold BroadcastViews.fill
  split_ifs with hdone
  · exact .refl h (.refl _) (fun _ => rfl) random
  · have hp : p ∈ b.members := (h.views p).mp (not_not.mp (not_or.mp hdone).1)
    have hs := h.sample random p
    exact (FillDiff.run hp (.refl (h.reorder hs.perm hs.indexes) hs.perm (fun _ => rfl) _)
      hs.nodup hs.candidate (fun _ _ => List.not_mem_nil)).1

/-- A filled view is full, or holds every other member. -/
theorem WellFormed.size_fill (h : b.WellFormed size) (random : Stream' Draw) {p : PeerId}
    (hp : p ∈ b.members) :
    ((b.fill size random p).views.viewOf p).size = min size (b.members.length - 1) := by
  have hdiff := h.fill random p
  have hmem : p ∈ (b.fill size random p).views.members := hdiff.members.mem_iff.mpr hp
  have hlt := hdiff.wf.size_lt hmem
  have hbound := hdiff.wf.bounded p
  rw [hdiff.members.length_eq] at hlt
  refine le_antisymm (by omega) ?_
  revert hdiff
  unfold BroadcastViews.fill
  split_ifs with hdone
  · intro _
    have := hdone.resolve_left (not_not_intro ((h.views p).mpr hp))
    exact le_trans (min_le_left _ _) this
  · intro hdiff
    have hs := h.sample random p
    rcases (FillDiff.run hp (.refl (h.reorder hs.perm hs.indexes) hs.perm (fun _ => rfl)
        (b.sample size random p).random) hs.nodup hs.candidate
        (fun _ _ => List.not_mem_nil)).2 with hfull | hall
    · exact le_trans (min_le_left _ _) hfull
    · rw [hdiff.size_self, hall]
      exact hs.enough

end BroadcastViews

/-! ## All broadcasts -/

/-- The calls of the tracker. -/
inductive NeighborOp where
  | add (broadcastId : BroadcastId) (peerId : PeerId)
  | fill (broadcastId : BroadcastId) (peerId : PeerId)
  | leave (broadcastId : BroadcastId) (peerId : PeerId)
  | removeBroadcast (broadcastId : BroadcastId)
deriving DecidableEq

def NeighborOp.broadcastId : NeighborOp → BroadcastId
  | .add b _ | .fill b _ | .leave b _ | .removeBroadcast b => b

namespace NeighborViews

def applyOp (v : NeighborViews) : NeighborOp → NeighborViews
  | .add b p => v.add b p
  | .fill b p => (v.fill b p).1
  | .leave b p => (v.leave b p).1
  | .removeBroadcast b => v.removeBroadcast b

/-- Any calls on views that start empty, whatever `random()` returns. -/
def system (size : ℕ) : TransitionSystem NeighborViews NeighborOp where
  init v := ∃ random, v = .new size random
  step v op := some (v.applyOp op)

def WellFormed (v : NeighborViews) : Prop :=
  ∀ b views, v.broadcasts.get? b = some views → views.WellFormed v.size

variable {v : NeighborViews}

theorem WellFormed.broadcastViews (h : v.WellFormed) (b : BroadcastId) :
    (v.broadcastViews b).WellFormed v.size := by
  unfold NeighborViews.broadcastViews
  cases hb : v.broadcasts.get? b with
  | none => exact BroadcastViews.wellFormed_empty v.size
  | some views => exact h b views hb

/-- Replacing the views of one broadcast by well-formed ones. -/
theorem WellFormed.set (h : v.WellFormed) {b : BroadcastId} {views : BroadcastViews}
    (hviews : views.WellFormed v.size) (random : Stream' Draw) :
    WellFormed ⟨v.size, random, v.broadcasts.set b views⟩ := by
  intro b' views' hb'
  rw [OrderedMap.get?_set] at hb'
  split_ifs at hb' with hb
  · exact Option.some.inj hb' ▸ hviews
  · exact h b' views' hb'

theorem WellFormed.delete (h : v.WellFormed) (b : BroadcastId) :
    WellFormed { v with broadcasts := v.broadcasts.delete b } := by
  intro b' views' hb'
  rw [OrderedMap.get?_delete] at hb'
  split_ifs at hb'
  exact h b' views' hb'

theorem WellFormed.applyOp (h : v.WellFormed) (op : NeighborOp) : (v.applyOp op).WellFormed := by
  cases op with
  | add b p => exact h.set ((h.broadcastViews b).add p) v.random
  | fill b p =>
      simp only [NeighborViews.applyOp, NeighborViews.fill]
      cases hb : v.broadcasts.get? b with
      | none => exact h
      | some views => exact h.set ((h b views hb).fill v.random p).wf _
  | leave b p =>
      simp only [NeighborViews.applyOp, NeighborViews.leave]
      cases hb : v.broadcasts.get? b with
      | none => exact h
      | some views =>
          have hviews := h b views hb
          have hleft : (views.leave p).1.WellFormed v.size := by
            by_cases hp : p ∈ views.members
            · exact (hviews.leave hp).wf
            · rw [BroadcastViews.leave_of_not_mem (mt hviews.indexes.mem_iff.mp hp)]
              exact hviews
          dsimp only
          split_ifs
          · exact h.delete b
          · exact h.set hleft v.random
  | removeBroadcast b => exact h.delete b

theorem size_applyOp (v : NeighborViews) (op : NeighborOp) : (v.applyOp op).size = v.size := by
  cases op with
  | add b p => rfl
  | fill b p =>
      simp only [applyOp, fill]
      cases v.broadcasts.get? b <;> rfl
  | leave b p =>
      simp only [applyOp, leave]
      cases v.broadcasts.get? b with
      | none => rfl
      | some views =>
          dsimp only
          split_ifs <;> rfl
  | removeBroadcast b => rfl

/-- An operation on one broadcast leaves the others alone. -/
theorem get?_applyOp_of_ne (v : NeighborViews) (op : NeighborOp) {b : BroadcastId}
    (hb : b ≠ op.broadcastId) : (v.applyOp op).broadcasts.get? b = v.broadcasts.get? b := by
  cases op with
  | add b' p => exact (OrderedMap.get?_set _ _ _ _).trans (if_neg hb)
  | fill b' p =>
      simp only [applyOp, fill]
      cases v.broadcasts.get? b' with
      | none => rfl
      | some views => exact (OrderedMap.get?_set _ _ _ _).trans (if_neg hb)
  | leave b' p =>
      simp only [applyOp, leave]
      cases v.broadcasts.get? b' with
      | none => rfl
      | some views =>
          dsimp only
          split_ifs
          · exact (OrderedMap.get?_delete _ _ _).trans (if_neg hb)
          · exact (OrderedMap.get?_set _ _ _ _).trans (if_neg hb)
  | removeBroadcast b' => exact (OrderedMap.get?_delete _ _ _).trans (if_neg hb)

theorem wellFormed_of_reachable {size : ℕ} (hr : (system size).Reachable (fun _ _ => True) v) :
    v.size = size ∧ v.WellFormed := by
  refine hr.invariant (fun v => v.size = size ∧ v.WellFormed) ?_ ?_
  · rintro v ⟨random, rfl⟩
    exact ⟨rfl, fun b views hb => nomatch hb⟩
  · rintro v op v' ⟨hsize, h⟩ - hstep
    obtain rfl := Option.some.inj hstep
    exact ⟨(size_applyOp v op).trans hsize, h.applyOp op⟩

/-- **The four structures agree** after any calls on any broadcasts: views and
watchers mirror each other, nobody sees itself, both ends of a link are members,
no view exceeds the size, the positions are the exact inverse of the duplicate-free
member list; and a call on one broadcast leaves the others alone. -/
theorem views_well_formed {size : ℕ} (hr : (system size).Reachable (fun _ _ => True) v) :
    (∀ b views, v.broadcasts.get? b = some views →
      views.WellFormed size ∧ views.members.Nodup ∧
        ∀ a c, c ∈ views.viewOf a → a ∈ views.members ∧ c ∈ views.members) ∧
    ∀ op b, b ≠ op.broadcastId → (v.applyOp op).broadcasts.get? b = v.broadcasts.get? b := by
  obtain ⟨hsize, h⟩ := wellFormed_of_reachable hr
  refine ⟨fun b views hb => ?_, fun op b => get?_applyOp_of_ne v op⟩
  have hviews := hsize ▸ h b views hb
  exact ⟨hviews, hviews.indexes.nodup, fun a c hc =>
    ⟨(hviews.views a).mp (BroadcastViews.mem_views_of_mem_viewOf hc), hviews.closed a c hc⟩⟩

/-- A random source that always returns the same number. -/
def always (draw : Draw) : Stream' Draw := fun _ => draw

/-- Three peers with room for one neighbor each, the first of which leaves. -/
def crowdedRun : List NeighborOp :=
  [.add "live" "p", .add "live" "q", .fill "live" "q", .add "live" "r", .fill "live" "r",
    .leave "live" "p"]

theorem views_well_formed_crowded :
    (∀ b views, (crowdedRun.foldl applyOp (.new 1 (always ⟨0, by decide⟩))).broadcasts.get? b
        = some views →
      views.WellFormed 1 ∧ views.members.Nodup ∧
        ∀ a c, c ∈ views.viewOf a → a ∈ views.members ∧ c ∈ views.members) ∧
    ∀ op b, b ≠ op.broadcastId →
      ((crowdedRun.foldl applyOp (.new 1 (always ⟨0, by decide⟩))).applyOp op).broadcasts.get? b
        = (crowdedRun.foldl applyOp (.new 1 (always ⟨0, by decide⟩))).broadcasts.get? b :=
  views_well_formed (TransitionSystem.reachable_of_run ⟨_, rfl⟩
    ((system 1).run_eq_foldl (fun _ _ => rfl) crowdedRun _))

end NeighborViews

end OpenStreamGrid
