import OpenStreamGrid.Tracker.NeighborInvariant

/-!
# What the calls on neighbor views do

The members and the views of every broadcast after each call, read through
`members` and `viewOf`. The fan-out is argued from these statements alone.
-/

namespace OpenStreamGrid

/-- Without its last member a broadcast has empty views. -/
theorem BroadcastViews.LeaveDiff.empty {size : ℕ} {views left : BroadcastViews} {p : PeerId}
    {lost : List PeerId} (h : views.LeaveDiff size p left lost) (hlast : left.members = []) :
    views.LeaveDiff size p .empty lost where
  wf := BroadcastViews.wellFormed_empty size
  members x := by
    have := h.members x
    rwa [hlast] at this
  length := by
    have := h.length
    rwa [hlast] at this
  sees a x := by
    rw [← h.sees]
    constructor
    · exact fun hx => absurd hx (OrderedSet.not_mem_empty x)
    · intro hx
      have := h.wf.closed a x hx
      rw [hlast] at this
      exact absurd this List.not_mem_nil
  lost_iff := h.lost_iff
  nodup := h.nodup

namespace NeighborViews

variable {v : NeighborViews}

def members (v : NeighborViews) (b : BroadcastId) : List PeerId := (v.broadcastViews b).members

/-- Whom a peer sees, nobody where it is no member. -/
def viewOf (v : NeighborViews) (b : BroadcastId) (p : PeerId) : OrderedSet PeerId :=
  (v.broadcastViews b).viewOf p

theorem viewOf_eq (v : NeighborViews) (b : BroadcastId) (p : PeerId) :
    v.viewOf b p = (v.view b p).getD ∅ := by
  unfold viewOf view broadcastViews BroadcastViews.viewOf
  cases v.broadcasts.get? b <;> rfl

theorem isSome_view_iff (h : v.WellFormed) {b : BroadcastId} {p : PeerId} :
    (v.view b p).isSome ↔ p ∈ v.members b := by
  unfold view members broadcastViews
  cases hb : v.broadcasts.get? b with
  | none => simp [BroadcastViews.empty]
  | some views => exact OrderedMap.mem_iff_isSome.symm.trans ((h b views hb).views p)

theorem mem_members_of_mem_viewOf (h : v.WellFormed) {b : BroadcastId} {a c : PeerId}
    (hc : c ∈ v.viewOf b a) : a ∈ v.members b ∧ c ∈ v.members b := by
  have hviews := h.broadcastViews b
  exact ⟨(hviews.views a).mp (BroadcastViews.mem_views_of_mem_viewOf hc), hviews.closed a c hc⟩

theorem not_mem_viewOf_self (h : v.WellFormed) (b : BroadcastId) (p : PeerId) :
    p ∉ v.viewOf b p := (h.broadcastViews b).irrefl p

theorem broadcastViews_congr {v' : NeighborViews} {b : BroadcastId}
    (h : v'.broadcasts.get? b = v.broadcasts.get? b) : v'.broadcastViews b = v.broadcastViews b := by
  unfold broadcastViews
  rw [h]

/-! ## Joining -/

theorem WellFormed.add (h : v.WellFormed) (b : BroadcastId) (p : PeerId) : (v.add b p).WellFormed :=
  h.applyOp (.add b p)

theorem broadcastViews_add (v : NeighborViews) (b b' : BroadcastId) (p : PeerId) :
    (v.add b p).broadcastViews b'
      = if b' = b then (v.broadcastViews b).add p else v.broadcastViews b' := by
  unfold add
  rw [NeighborViews.broadcastViews, OrderedMap.get?_set]
  split_ifs <;> rfl

theorem mem_members_add (h : v.WellFormed) {b b' : BroadcastId} {p x : PeerId} :
    x ∈ (v.add b p).members b' ↔ x ∈ v.members b' ∨ b' = b ∧ x = p := by
  unfold members
  rw [broadcastViews_add]
  split_ifs with hb
  · subst hb
    simp [(h.broadcastViews b').mem_members_add]
  · simp [hb]

theorem viewOf_add (h : v.WellFormed) (b b' : BroadcastId) (p x : PeerId) :
    (v.add b p).viewOf b' x = v.viewOf b' x := by
  unfold viewOf
  rw [broadcastViews_add]
  split_ifs with hb
  · rw [hb]
    exact (h.broadcastViews b).viewOf_add p x
  · rfl

/-! ## Filling -/

theorem WellFormed.fill (h : v.WellFormed) (b : BroadcastId) (p : PeerId) :
    (v.fill b p).1.WellFormed := h.applyOp (.fill b p)

theorem broadcastViews_fill_of_ne (v : NeighborViews) {b b' : BroadcastId} (hb : b' ≠ b)
    (p : PeerId) : (v.fill b p).1.broadcastViews b' = v.broadcastViews b' :=
  broadcastViews_congr (v.get?_applyOp_of_ne (.fill b p) hb)

theorem fillDiff (h : v.WellFormed) (b : BroadcastId) (p : PeerId) :
    FillDiff v.size (v.broadcastViews b) p
      ⟨(v.fill b p).1.broadcastViews b, (v.fill b p).1.random, (v.fill b p).2⟩ := by
  cases hb : v.broadcasts.get? b with
  | none =>
      have hfill : v.fill b p = (v, .none) := by
        unfold NeighborViews.fill
        rw [hb]
      rw [hfill]
      exact .refl (h.broadcastViews b) (.refl _) (fun _ => rfl) _
  | some views =>
      have hviews : v.broadcastViews b = views := by
        unfold broadcastViews
        rw [hb, Option.getD_some]
      have hfill : v.fill b p =
          (⟨v.size, (views.fill v.size v.random p).random,
            v.broadcasts.set b (views.fill v.size v.random p).views⟩,
            (views.fill v.size v.random p).result) := by
        unfold NeighborViews.fill
        rw [hb]
      rw [hviews, hfill]
      unfold broadcastViews
      rw [OrderedMap.get?_set, if_pos rfl, Option.getD_some]
      exact (h b views hb).fill v.random p

theorem mem_members_fill (h : v.WellFormed) {b b' : BroadcastId} {p x : PeerId} :
    x ∈ (v.fill b p).1.members b' ↔ x ∈ v.members b' := by
  unfold members
  by_cases hb : b' = b
  · rw [hb]
    exact (fillDiff h b p).members.mem_iff
  · rw [broadcastViews_fill_of_ne v hb]

/-! ## Leaving -/

theorem WellFormed.leave (h : v.WellFormed) (b : BroadcastId) (p : PeerId) :
    (v.leave b p).1.WellFormed := h.applyOp (.leave b p)

theorem broadcastViews_leave_of_ne (v : NeighborViews) {b b' : BroadcastId} (hb : b' ≠ b)
    (p : PeerId) : (v.leave b p).1.broadcastViews b' = v.broadcastViews b' :=
  broadcastViews_congr (v.get?_applyOp_of_ne (.leave b p) hb)

theorem leaveDiff (h : v.WellFormed) {b : BroadcastId} {p : PeerId} (hp : p ∈ v.members b) :
    (v.broadcastViews b).LeaveDiff v.size p ((v.leave b p).1.broadcastViews b)
      (v.leave b p).2 := by
  unfold NeighborViews.leave
  cases hb : v.broadcasts.get? b with
  | none =>
      unfold members broadcastViews at hp
      rw [hb] at hp
      exact absurd hp List.not_mem_nil
  | some views =>
      have hviews : v.broadcastViews b = views := by
        unfold broadcastViews
        rw [hb, Option.getD_some]
      have hdiff := (h b views hb).leave (hviews ▸ hp : p ∈ views.members)
      dsimp only
      rw [hviews]
      split_ifs with hlast
      · unfold broadcastViews
        rw [OrderedMap.get?_delete, if_pos rfl, Option.getD_none]
        exact hdiff.empty hlast.2
      · unfold broadcastViews
        rw [OrderedMap.get?_set, if_pos rfl, Option.getD_some]
        exact hdiff

theorem leave_of_not_mem (h : v.WellFormed) {b : BroadcastId} {p : PeerId}
    (hp : p ∉ v.members b) :
    (∀ b', (v.leave b p).1.broadcastViews b' = v.broadcastViews b') ∧ (v.leave b p).2 = [] := by
  unfold NeighborViews.leave
  cases hb : v.broadcasts.get? b with
  | none => exact ⟨fun _ => rfl, rfl⟩
  | some views =>
      have hviews : v.broadcastViews b = views := by
        unfold broadcastViews
        rw [hb, Option.getD_some]
      have hpos : p ∉ views.positions := by
        rw [(h b views hb).indexes.mem_iff, ← hviews]
        exact hp
      dsimp only
      rw [BroadcastViews.leave_of_not_mem hpos]
      dsimp only
      rw [if_neg fun hand => hpos hand.1]
      refine ⟨fun b' => broadcastViews_congr ?_, rfl⟩
      rw [OrderedMap.set_of_get? hb]

theorem mem_members_leave (h : v.WellFormed) {b b' : BroadcastId} {p x : PeerId} :
    x ∈ (v.leave b p).1.members b' ↔ x ∈ v.members b' ∧ ¬ (b' = b ∧ x = p) := by
  by_cases hp : p ∈ v.members b
  · by_cases hb : b' = b
    · subst hb
      simp only [members, (leaveDiff h hp).members, true_and, ne_eq]
    · simp [members, broadcastViews_leave_of_ne v hb, hb]
  · rw [members, (leave_of_not_mem h hp).1, members]
    refine (and_iff_left_of_imp ?_).symm
    rintro hx ⟨rfl, rfl⟩
    exact hp hx

theorem mem_viewOf_leave (h : v.WellFormed) {b b' : BroadcastId} {p a x : PeerId} :
    x ∈ (v.leave b p).1.viewOf b' a ↔ x ∈ v.viewOf b' a ∧ (b' = b → a ≠ p ∧ x ≠ p) := by
  by_cases hp : p ∈ v.members b
  · by_cases hb : b' = b
    · subst hb
      simp only [viewOf, (leaveDiff h hp).sees, true_implies]
    · simp [viewOf, broadcastViews_leave_of_ne v hb, hb]
  · rw [viewOf, (leave_of_not_mem h hp).1, ← viewOf]
    refine (and_iff_left_of_imp ?_).symm
    rintro hx rfl
    obtain ⟨ha, hc⟩ := mem_members_of_mem_viewOf h hx
    exact ⟨fun e => hp (e ▸ ha), fun e => hp (e ▸ hc)⟩

/-- The peers that lose a neighbor. -/
theorem mem_leave (h : v.WellFormed) {b : BroadcastId} {p a : PeerId} :
    a ∈ (v.leave b p).2 ↔ p ∈ v.viewOf b a := by
  by_cases hp : p ∈ v.members b
  · exact (leaveDiff h hp).lost_iff a
  · rw [(leave_of_not_mem h hp).2]
    refine iff_of_false List.not_mem_nil fun hx => hp ?_
    exact (mem_members_of_mem_viewOf h hx).2

theorem nodup_leave (h : v.WellFormed) (b : BroadcastId) (p : PeerId) : (v.leave b p).2.Nodup := by
  by_cases hp : p ∈ v.members b
  · exact (leaveDiff h hp).nodup
  · rw [(leave_of_not_mem h hp).2]
    exact List.nodup_nil

/-! ## Removing a broadcast -/

theorem WellFormed.removeBroadcast (h : v.WellFormed) (b : BroadcastId) :
    (v.removeBroadcast b).WellFormed := h.applyOp (.removeBroadcast b)

theorem broadcastViews_removeBroadcast (v : NeighborViews) (b b' : BroadcastId) :
    (v.removeBroadcast b).broadcastViews b' = if b' = b then .empty else v.broadcastViews b' := by
  unfold NeighborViews.removeBroadcast
  rw [broadcastViews, OrderedMap.get?_delete]
  split_ifs <;> rfl

end NeighborViews

end OpenStreamGrid
