import OpenStreamGrid.Tracker.NeighborInvariant

/-!
# No neighbor view is starved

The tracker fills the view of a peer that joins, and after a peer leaves it
fills the views that contained it one by one. A fill may evict links of third
peers, but it shrinks no view (`FillDiff.size_le`), so only the views the leave
itself shortened need repair and `Filled` is restored at the end of each step.
-/

namespace OpenStreamGrid

namespace BroadcastViews

variable {size : ℕ} {b : BroadcastViews} {p : PeerId}

/-- The view of `p` is as large as the audience allows. -/
def FilledAt (size : ℕ) (b : BroadcastViews) (p : PeerId) : Prop :=
  (b.viewOf p).size = min size (b.members.length - 1)

/-- Every member's view is as large as the audience allows. -/
def Filled (size : ℕ) (b : BroadcastViews) : Prop := ∀ p ∈ b.members, FilledAt size b p

theorem WellFormed.size_le_min (h : b.WellFormed size) (hp : p ∈ b.members) :
    (b.viewOf p).size ≤ min size (b.members.length - 1) := by
  have := h.size_lt hp
  have := h.bounded p
  omega

theorem WellFormed.filledAt_of_le (h : b.WellFormed size) (hp : p ∈ b.members)
    (hle : min size (b.members.length - 1) ≤ (b.viewOf p).size) : FilledAt size b p :=
  le_antisymm (h.size_le_min hp) hle

theorem WellFormed.filledAt_fill_self (h : b.WellFormed size) (random : Stream' Draw)
    (hp : p ∈ b.members) : FilledAt size (b.fill size random p).views p := by
  unfold FilledAt
  rw [h.size_fill random hp, (h.fill random p).members.length_eq]

/-- Filling one view leaves the full ones full. -/
theorem WellFormed.filledAt_fill (h : b.WellFormed size) (random : Stream' Draw) (p : PeerId)
    {c : PeerId} (hc : c ∈ b.members) (hfilled : FilledAt size b c) :
    FilledAt size (b.fill size random p).views c := by
  have hdiff := h.fill random p
  refine hdiff.wf.filledAt_of_le (hdiff.members.mem_iff.mpr hc) ?_
  rw [hdiff.members.length_eq, ← hfilled]
  exact hdiff.size_le h c

/-- The joined broadcast with the new member's view filled. -/
theorem Filled.join (hfilled : Filled size b) (h : b.WellFormed size) (random : Stream' Draw)
    (p : PeerId) : Filled size ((b.add p).fill size random p).views := by
  have hadd := h.add p
  have hdiff := hadd.fill random p
  intro c hc
  rw [hdiff.members.mem_iff] at hc
  by_cases hold : p ∈ b.positions
  · have hsame : b.add p = b := if_pos hold
    rw [hsame] at hc ⊢
    exact h.filledAt_fill random p hc (hfilled c hc)
  have hnew : p ∉ b.members := mt h.indexes.mem_iff.mpr hold
  have hmembers : (b.add p).members = b.members ++ [p] := by
    unfold BroadcastViews.add
    rw [if_neg hold]
  have hview : ∀ x, (b.add p).viewOf x = b.viewOf x := h.viewOf_add p
  have hp : p ∈ (b.add p).members := hmembers ▸ List.mem_append_right _ List.mem_cons_self
  by_cases hcp : c = p
  · exact hcp ▸ hadd.filledAt_fill_self random hp
  have hcb : c ∈ b.members := by
    rw [hmembers, List.mem_append, List.mem_singleton] at hc
    exact hc.resolve_right hcp
  have hlen : (b.add p).members.length = b.members.length + 1 := by
    rw [hmembers, List.length_append, List.length_singleton]
  have hcsize := hfilled c hcb
  have hself := hadd.size_fill random hp
  have hpos := List.length_pos_of_mem hcb
  unfold FilledAt at hcsize
  by_cases hroomy : b.members.length ≤ size
  · -- everyone is visible to the newcomer, so everyone has linked back
    have hnone : p ∉ b.viewOf c := fun hmem => hnew (h.closed c p hmem)
    have hpview : b.viewOf p = ∅ := viewOf_of_not_mem fun hv => hnew ((h.views p).mp hv)
    have hsees : c ∈ ((b.add p).fill size random p).views.viewOf p := by
      refine hdiff.wf.sees_all (hdiff.members.mem_iff.mpr hp) ?_ (hdiff.members.mem_iff.mpr hc) hcp
      rw [hself, hdiff.members.length_eq, hlen]
      omega
    have hadded : c ∈ ((b.add p).fill size random p).result.added := by
      rcases (hdiff.sees p c).mp hsees with ⟨hmem, -⟩ | ⟨-, hmem⟩ | ⟨he, -⟩
      · rw [hview, hpview] at hmem
        exact absurd hmem (OrderedSet.not_mem_empty c)
      · exact hmem
      · exact absurd he hcp
    have hback : c ∈ ((b.add p).fill size random p).result.reciprocal := by
      rcases (hdiff.sees c p).mp (hdiff.linkedBack c hadded) with ⟨hmem, -⟩ | ⟨he, -⟩ | ⟨-, hmem⟩
      · rw [hview] at hmem
        exact absurd hmem hnone
      · exact absurd he hcp
      · exact hmem
    unfold FilledAt
    rw [hdiff.size_other c hcp, if_pos hback, hview, hdiff.members.length_eq, hlen]
    omega
  · refine hadd.filledAt_fill random p hc ?_
    unfold FilledAt
    rw [hview, hlen]
    omega

/-- After a leave only the views that contained the peer are short. -/
theorem LeaveDiff.filledAt {left : BroadcastViews} {lost : List PeerId}
    (hdiff : LeaveDiff size b p left lost) (hfilled : Filled size b) {c : PeerId}
    (hc : c ∈ left.members) (hlost : c ∉ lost) : FilledAt size left c := by
  obtain ⟨hcb, hne⟩ := (hdiff.members c).mp hc
  have hsame : (left.viewOf c).SameElems (b.viewOf c) := by
    intro x
    rw [hdiff.sees]
    constructor
    · exact fun hx => hx.1
    · intro hx
      refine ⟨hx, hne, ?_⟩
      rintro rfl
      exact hlost ((hdiff.lost_iff c).mpr hx)
  have hsize : (left.viewOf c).size = (b.viewOf c).size := hsame.perm.length_eq
  refine hdiff.wf.filledAt_of_le hc ?_
  have hold := hfilled c hcb
  have hlt := hdiff.wf.size_lt hc
  have hlen := hdiff.length
  unfold FilledAt at hold
  omega

end BroadcastViews

namespace NeighborViews

variable {v : NeighborViews}

/-- A peer joins: it is added and its view is filled. -/
def joined (v : NeighborViews) (b : BroadcastId) (p : PeerId) : NeighborViews :=
  ((v.add b p).fill b p).1

/-- Fills the views of several peers in order. -/
def fillEach (v : NeighborViews) (b : BroadcastId) (peers : List PeerId) : NeighborViews :=
  peers.foldl (fun v watcher => (v.fill b watcher).1) v

/-- A peer leaves: the views that contained it are filled in the order returned. -/
def departed (v : NeighborViews) (b : BroadcastId) (p : PeerId) : NeighborViews :=
  (v.leave b p).1.fillEach b (v.leave b p).2

inductive AudienceOp where
  | join (broadcastId : BroadcastId) (peerId : PeerId)
  | leave (broadcastId : BroadcastId) (peerId : PeerId)
deriving DecidableEq

def applyAudienceOp (v : NeighborViews) : AudienceOp → NeighborViews
  | .join b p => v.joined b p
  | .leave b p => v.departed b p

/-- Joins and leaves in any order, whatever `random()` returns. -/
def audience (size : ℕ) : TransitionSystem NeighborViews AudienceOp where
  init v := ∃ random, v = .new size random
  step v op := some (v.applyAudienceOp op)

/-- All views of all broadcasts are well-formed and full. -/
structure AllFilled (size : ℕ) (v : NeighborViews) : Prop where
  size_eq : v.size = size
  wf : ∀ b views, v.broadcasts.get? b = some views → views.WellFormed size
  filled : ∀ b views, v.broadcasts.get? b = some views → views.Filled size

theorem fill_of_get? {b : BroadcastId} {views : BroadcastViews}
    (hb : v.broadcasts.get? b = some views) (p : PeerId) :
    (v.fill b p).1 = ⟨v.size, (views.fill v.size v.random p).random,
      v.broadcasts.set b (views.fill v.size v.random p).views⟩ := by
  unfold NeighborViews.fill
  rw [hb]

/-- Filling the views of `peers` in turn: afterwards those are full as well. -/
theorem fillEach_filled {size : ℕ} {b : BroadcastId} : ∀ (peers : List PeerId)
    {v : NeighborViews} {views : BroadcastViews}, v.size = size →
    v.broadcasts.get? b = some views → views.WellFormed size →
    (∀ p ∈ peers, p ∈ views.members) →
    (∀ p ∈ views.members, p ∉ peers → views.FilledAt size p) →
    ∃ views' random, v.fillEach b peers = ⟨size, random, v.broadcasts.set b views'⟩ ∧
      views'.WellFormed size ∧ views'.Filled size
  | [], v, views, hsize, hb, hwf, _, hfilled => by
      refine ⟨views, v.random, ?_, hwf, fun p hp => hfilled p hp List.not_mem_nil⟩
      rw [OrderedMap.set_of_get? hb, ← hsize]
      rfl
  | watcher :: rest, v, views, hsize, hb, hwf, hmem, hfilled => by
      have hwatcher := hmem watcher List.mem_cons_self
      have hdiff := hwf.fill v.random watcher
      have hstep := fill_of_get? hb watcher
      rw [hsize] at hstep
      have hlater : ∀ p ∈ (views.fill size v.random watcher).views.members, p ∉ rest →
          (views.fill size v.random watcher).views.FilledAt size p := by
        intro p hp hrest
        rw [hdiff.members.mem_iff] at hp
        by_cases he : p = watcher
        · rw [he]
          exact hwf.filledAt_fill_self v.random hwatcher
        · refine hwf.filledAt_fill v.random watcher hp (hfilled p hp ?_)
          simp [he, hrest]
      have hget : (v.fill b watcher).1.broadcasts.get? b
          = some (views.fill size v.random watcher).views := by
        rw [hstep, OrderedMap.get?_set, if_pos rfl]
      obtain ⟨views', random, heq, hresult⟩ := fillEach_filled rest (by rw [hstep]) hget hdiff.wf
        (fun p hp => hdiff.members.mem_iff.mpr (hmem p (List.mem_cons_of_mem _ hp))) hlater
      refine ⟨views', random, ?_, hresult⟩
      change (v.fill b watcher).1.fillEach b rest = _
      rw [heq, hstep, OrderedMap.set_set]

theorem AllFilled.set {size : ℕ} (h : AllFilled size v) {b : BroadcastId} {views : BroadcastViews}
    (hwf : views.WellFormed size) (hfilled : views.Filled size) (random : Stream' Draw) :
    AllFilled size ⟨size, random, v.broadcasts.set b views⟩ where
  size_eq := rfl
  wf b' views' hb' := by
    rw [OrderedMap.get?_set] at hb'
    split_ifs at hb' with hb
    · exact Option.some.inj hb' ▸ hwf
    · exact h.wf b' views' hb'
  filled b' views' hb' := by
    rw [OrderedMap.get?_set] at hb'
    split_ifs at hb' with hb
    · exact Option.some.inj hb' ▸ hfilled
    · exact h.filled b' views' hb'

theorem AllFilled.joined {size : ℕ} (h : AllFilled size v) (b : BroadcastId) (p : PeerId) :
    AllFilled size (v.joined b p) := by
  obtain rfl := h.size_eq
  have hviews :
      (v.broadcastViews b).WellFormed v.size ∧ (v.broadcastViews b).Filled v.size := by
    unfold broadcastViews
    cases hb : v.broadcasts.get? b with
    | none => exact ⟨BroadcastViews.wellFormed_empty _, fun p hp => nomatch hp⟩
    | some views => exact ⟨h.wf b views hb, h.filled b views hb⟩
  have hget : (v.add b p).broadcasts.get? b = some ((v.broadcastViews b).add p) := by
    exact (OrderedMap.get?_set _ _ _ _).trans (if_pos rfl)
  unfold NeighborViews.joined
  rw [fill_of_get? hget]
  change AllFilled v.size ⟨v.size, _, (v.broadcasts.set b _).set b _⟩
  rw [OrderedMap.set_set]
  exact h.set ((hviews.1.add p).fill v.random p).wf (hviews.2.join hviews.1 v.random p) _

theorem AllFilled.departed {size : ℕ} (h : AllFilled size v) (b : BroadcastId) (p : PeerId) :
    AllFilled size (v.departed b p) := by
  unfold NeighborViews.departed NeighborViews.leave
  cases hb : v.broadcasts.get? b with
  | none => exact h
  | some views =>
      have hwf := h.wf b views hb
      dsimp only
      by_cases hp : p ∈ views.members
      · have hdiff := hwf.leave hp
        split_ifs with hlast
        · -- the last member leaves: nobody had it in view
          have hnobody : (views.leave p).2 = [] := by
            refine List.eq_nil_iff_forall_not_mem.mpr fun c hc => ?_
            have hmem := hdiff.mem_of_lost hwf hc
            rw [hlast.2] at hmem
            exact List.not_mem_nil hmem
          rw [hnobody]
          refine ⟨h.size_eq, ?_, ?_⟩
          · intro b' views' hb'
            change (v.broadcasts.delete b).get? b' = _ at hb'
            rw [OrderedMap.get?_delete] at hb'
            split_ifs at hb'
            exact h.wf b' views' hb'
          · intro b' views' hb'
            change (v.broadcasts.delete b).get? b' = _ at hb'
            rw [OrderedMap.get?_delete] at hb'
            split_ifs at hb'
            exact h.filled b' views' hb'
        · obtain ⟨views', random, heq, hwf', hfilled'⟩ := fillEach_filled (views.leave p).2
            (v := { v with broadcasts := v.broadcasts.set b (views.leave p).1 }) h.size_eq
            ((OrderedMap.get?_set _ _ _ _).trans (if_pos rfl)) hdiff.wf
            (fun c hc => hdiff.mem_of_lost hwf hc)
            (fun c hc hlost => hdiff.filledAt (h.filled b views hb) hc hlost)
          rw [heq]
          change AllFilled size ⟨size, random, (v.broadcasts.set b _).set b views'⟩
          rw [OrderedMap.set_set]
          exact h.set hwf' hfilled' random
      · have hpos : p ∉ views.positions := mt hwf.indexes.mem_iff.mp hp
        rw [BroadcastViews.leave_of_not_mem hpos, if_neg (fun hand => hpos hand.1)]
        change AllFilled size ⟨v.size, v.random, v.broadcasts.set b views⟩
        rw [h.size_eq]
        exact h.set hwf (h.filled b views hb) v.random

theorem allFilled_of_reachable {size : ℕ} (hr : (audience size).Reachable (fun _ _ => True) v) :
    AllFilled size v := by
  refine hr.invariant (AllFilled size) ?_ ?_
  · rintro v ⟨random, rfl⟩
    exact ⟨rfl, fun b views hb => (nomatch hb), fun b views hb => (nomatch hb)⟩
  · rintro v op v' h - hstep
    obtain rfl := Option.some.inj hstep
    cases op with
    | join b p => exact h.joined b p
    | leave b p => exact h.departed b p

/-- **No view is starved**: after any joins and leaves every member sees exactly
`min size (n - 1)` distinct others, and everyone when the audience is small. -/
theorem every_view_filled {size : ℕ} (hr : (audience size).Reachable (fun _ _ => True) v)
    {b : BroadcastId} {views : BroadcastViews} (hb : v.broadcasts.get? b = some views)
    {p : PeerId} (hp : p ∈ views.members) :
    (views.viewOf p).size = min size (views.members.length - 1) ∧
      (∀ c ∈ views.viewOf p, c ∈ views.members ∧ c ≠ p) ∧
      (views.members.length ≤ size + 1 → ∀ c ∈ views.members, c ≠ p → c ∈ views.viewOf p) := by
  have h := allFilled_of_reachable hr
  have hwf := h.wf b views hb
  have hsize := h.filled b views hb p hp
  refine ⟨hsize, fun c hc => ⟨hwf.closed p c hc, ?_⟩, fun hsmall c hc hne => ?_⟩
  · rintro rfl
    exact hwf.irrefl c hc
  · refine hwf.sees_all hp ?_ hc hne
    unfold BroadcastViews.FilledAt at hsize
    omega

/-- Four peers with room for two neighbors each, one of which leaves. -/
def smallAudience : NeighborViews :=
  [AudienceOp.join "live" "p", .join "live" "q", .join "live" "r", .join "live" "s",
    .leave "live" "q"].foldl applyAudienceOp (.new 2 (always ⟨0, by decide⟩))

theorem every_view_filled_small :
    let views := smallAudience.broadcastViews "live"
    (views.viewOf "s").size = min 2 (views.members.length - 1) ∧
      (∀ c ∈ views.viewOf "s", c ∈ views.members ∧ c ≠ "s") ∧
      (views.members.length ≤ 2 + 1 → ∀ c ∈ views.members, c ≠ "s" → c ∈ views.viewOf "s") :=
  every_view_filled (v := smallAudience)
    (TransitionSystem.reachable_of_run ⟨_, rfl⟩ ((audience 2).run_eq_foldl (fun _ _ => rfl) _ _))
    (b := "live") (by decide +kernel) (by decide +kernel)

end NeighborViews

end OpenStreamGrid
