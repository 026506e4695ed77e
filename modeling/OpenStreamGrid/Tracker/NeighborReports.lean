import OpenStreamGrid.Tracker.NeighborEffects

/-!
# What a fill reports

The hub turns the three lists of a fill into messages, so they have to be the
difference between the views before and after it, link by link: a link nobody
reports leaves a client behind, and one that is reported twice, or as both
gained and lost, leaves it to the order of the messages what the client keeps.
-/

namespace OpenStreamGrid

namespace NeighborViewFill

/-- The links a fill of `p` reports as new, each as a watcher and whom it sees. -/
def gained (p : PeerId) (fill : NeighborViewFill) : List (PeerId × PeerId) :=
  fill.added.map (fun c => (p, c)) ++ fill.reciprocal.map (fun c => (c, p))

/-- The links it reports as dropped. -/
def lost (fill : NeighborViewFill) : List (PeerId × PeerId) :=
  fill.evicted.map fun e => (e.watcher, e.peerId)

/-- Every candidate is named once, and evicts at most once. -/
structure NamesOnce (fill : NeighborViewFill) : Prop where
  added : fill.added.Nodup
  reciprocal : fill.reciprocal.Sublist fill.added
  evicted : (fill.evicted.map Eviction.watcher).Sublist fill.reciprocal

theorem mem_gained {p a x : PeerId} {fill : NeighborViewFill} :
    (a, x) ∈ fill.gained p ↔ a = p ∧ x ∈ fill.added ∨ x = p ∧ a ∈ fill.reciprocal := by
  unfold gained
  rw [List.mem_append, List.mem_map, List.mem_map]
  constructor
  · rintro (⟨c, hc, heq⟩ | ⟨c, hc, heq⟩)
    · obtain ⟨rfl, rfl⟩ := Prod.mk.inj heq
      exact Or.inl ⟨rfl, hc⟩
    · obtain ⟨rfl, rfl⟩ := Prod.mk.inj heq
      exact Or.inr ⟨rfl, hc⟩
  · rintro (⟨rfl, hx⟩ | ⟨rfl, ha⟩)
    · exact Or.inl ⟨x, hx, rfl⟩
    · exact Or.inr ⟨a, ha, rfl⟩

theorem mem_lost {a x : PeerId} {fill : NeighborViewFill} :
    (a, x) ∈ fill.lost ↔ ⟨a, x⟩ ∈ fill.evicted := by
  unfold lost
  rw [List.mem_map]
  constructor
  · rintro ⟨⟨watcher, peerId⟩, he, heq⟩
    obtain ⟨rfl, rfl⟩ := Prod.mk.inj heq
    exact he
  · intro he
    exact ⟨_, he, rfl⟩

end NeighborViewFill

/-! ## The linking loop names nobody twice -/

namespace NeighborViewFill.NamesOnce

variable {size : ℕ} {p : PeerId} {l : Linking}

theorem connect (h : l.result.NamesOnce) {c : PeerId} (hnew : c ∉ l.result.added) :
    (l.connect size p c).result.NamesOnce := by
  have hadded : (l.result.added ++ [c]).Nodup := by
    rw [← List.concat_eq_append]
    exact h.added.concat hnew
  have hkept : l.result.reciprocal.Sublist (l.result.added ++ [c]) :=
    h.reciprocal.trans (List.sublist_append_left _ _)
  have hlinked : (l.result.reciprocal ++ [c]).Sublist (l.result.added ++ [c]) :=
    h.reciprocal.append (List.Sublist.refl [c])
  unfold Linking.connect
  dsimp only
  split_ifs with hseen hroom
  · exact ⟨hadded, hkept, h.evicted⟩
  · exact ⟨hadded, hlinked, h.evicted.trans (List.sublist_append_left _ _)⟩
  · cases (l.views.link p c).randomNeighbor l.random.head c with
    | none => exact ⟨hadded, hkept, h.evicted⟩
    | some dropped =>
        refine ⟨hadded, hlinked, ?_⟩
        show ((l.result.evicted ++ [Eviction.mk c dropped]).map Eviction.watcher).Sublist _
        rw [List.map_append]
        exact h.evicted.append (List.Sublist.refl [c])

theorem run : ∀ {cs : List PeerId} {l : Linking}, l.result.NamesOnce → cs.Nodup →
    (∀ c ∈ cs, c ∉ l.result.added) → (Linking.run size p cs l).result.NamesOnce := by
  intro cs
  induction cs with
  | nil => intro l h _ _; exact h
  | cons c rest ih =>
      intro l h hnd hnew
      obtain ⟨hc, hrest⟩ := List.nodup_cons.mp hnd
      unfold Linking.run
      split_ifs
      · exact h
      · apply ih (h.connect (hnew c List.mem_cons_self)) hrest
        intro d hd hmem
        rw [FillDiff.added_connect, List.mem_append, List.mem_singleton] at hmem
        rcases hmem with hold | rfl
        · exact hnew d (List.mem_cons_of_mem c hd) hold
        · exact hc hd

end NeighborViewFill.NamesOnce

theorem BroadcastViews.WellFormed.namesOnce_fill {size : ℕ} {b : BroadcastViews}
    (h : b.WellFormed size) (random : Stream' Draw) (p : PeerId) :
    (b.fill size random p).result.NamesOnce := by
  have hnone : NeighborViewFill.none.NamesOnce := ⟨List.nodup_nil, .slnil, .slnil⟩
  unfold BroadcastViews.fill
  split_ifs
  · exact hnone
  · refine NeighborViewFill.NamesOnce.run hnone (h.sample random p).nodup ?_
    intro c _
    exact List.not_mem_nil

/-! ## The lists against the views -/

namespace FillDiff

variable {size : ℕ} {b : BroadcastViews} {p a x : PeerId} {l : Linking}

theorem ne_of_reciprocal (h : FillDiff size b p l) (ha : a ∈ l.result.reciprocal) : a ≠ p :=
  (h.added a (h.reciprocal a ha).1).2.1

theorem gained_iff (h : FillDiff size b p l) :
    (x ∈ l.views.viewOf a ∧ x ∉ b.viewOf a) ↔ (a, x) ∈ l.result.gained p := by
  rw [NeighborViewFill.mem_gained, h.sees]
  constructor
  · rintro ⟨⟨hold, -⟩ | hnew, hbefore⟩
    · exact absurd hold hbefore
    · exact hnew
  · rintro (⟨rfl, hx⟩ | ⟨rfl, ha⟩)
    · exact ⟨Or.inr (Or.inl ⟨rfl, hx⟩), (h.added x hx).2.2⟩
    · exact ⟨Or.inr (Or.inr ⟨rfl, ha⟩), (h.reciprocal a ha).2⟩

theorem lost_iff (h : FillDiff size b p l) :
    (x ∈ b.viewOf a ∧ x ∉ l.views.viewOf a) ↔ (a, x) ∈ l.result.lost := by
  rw [NeighborViewFill.mem_lost, h.sees]
  constructor
  · rintro ⟨hbefore, hafter⟩
    by_contra hkept
    exact hafter (Or.inl ⟨hbefore, hkept⟩)
  · intro he
    obtain ⟨hwatcher, hbefore⟩ := h.evicted _ he
    refine ⟨hbefore, ?_⟩
    rintro (⟨-, hkept⟩ | ⟨ha, -⟩ | ⟨hx, -⟩)
    · exact hkept he
    · exact h.ne_of_reciprocal hwatcher ha
    · -- The watcher did not see the filled peer, so it cannot lose it.
      change x = p at hx
      rw [hx] at hbefore
      exact (h.reciprocal _ hwatcher).2 hbefore

theorem nodup_links (h : FillDiff size b p l) (honce : l.result.NamesOnce) :
    (l.result.gained p ++ l.result.lost).Nodup := by
  have hadded : (l.result.added.map fun c => (p, c)).Nodup :=
    honce.added.map fun c d hcd => (Prod.mk.inj hcd).2
  have hreciprocal : (l.result.reciprocal.map fun c => (c, p)).Nodup :=
    (honce.reciprocal.nodup honce.added).map fun c d hcd => (Prod.mk.inj hcd).1
  have hlost : l.result.lost.Nodup := by
    apply List.Nodup.of_map Prod.fst
    show ((l.result.evicted.map fun e => (e.watcher, e.peerId)).map Prod.fst).Nodup
    rw [List.map_map]
    exact honce.evicted.nodup (honce.reciprocal.nodup honce.added)
  have hways : (l.result.added.map fun c => (p, c)).Disjoint
      (l.result.reciprocal.map fun c => (c, p)) := by
    intro link hout hback
    obtain ⟨c, -, rfl⟩ := List.mem_map.mp hout
    obtain ⟨d, hd, heq⟩ := List.mem_map.mp hback
    exact h.ne_of_reciprocal hd (Prod.mk.inj heq).1
  refine List.nodup_append'.mpr ⟨List.nodup_append'.mpr ⟨hadded, hreciprocal, hways⟩, hlost, ?_⟩
  rintro ⟨a, x⟩ hgained hdropped
  exact (h.gained_iff.mpr hgained).2 (h.lost_iff.mpr hdropped).1

end FillDiff

namespace NeighborViews

variable {v : NeighborViews}

/-- The lists of a fill are the difference of the views, in every broadcast. -/
structure ReportsExactly (before after : NeighborViews) (b : BroadcastId) (p : PeerId)
    (fill : NeighborViewFill) : Prop where
  gained : ∀ b' a x, (x ∈ after.viewOf b' a ∧ x ∉ before.viewOf b' a) ↔
    b' = b ∧ (a, x) ∈ fill.gained p
  lost : ∀ b' a x, (x ∈ before.viewOf b' a ∧ x ∉ after.viewOf b' a) ↔
    b' = b ∧ (a, x) ∈ fill.lost
  once : (fill.gained p ++ fill.lost).Nodup
  linkedBack : ∀ c ∈ fill.added, p ∈ after.viewOf b c

theorem namesOnce_fill (h : v.WellFormed) (b : BroadcastId) (p : PeerId) :
    (v.fill b p).2.NamesOnce := by
  unfold NeighborViews.fill
  cases hb : v.broadcasts.get? b with
  | none => exact ⟨List.nodup_nil, .slnil, .slnil⟩
  | some views => exact (h b views hb).namesOnce_fill v.random p

theorem viewOf_fill_of_ne (v : NeighborViews) {b b' : BroadcastId} (hb : b' ≠ b) (p a : PeerId) :
    (v.fill b p).1.viewOf b' a = v.viewOf b' a := by
  unfold viewOf
  rw [broadcastViews_fill_of_ne v hb]

/-- **A fill reports exactly what it changed**, of any views that calls lead to. -/
theorem fill_reportsExactly {size : ℕ} (hr : (system size).Reachable (fun _ _ => True) v)
    (b : BroadcastId) (p : PeerId) : ReportsExactly v (v.fill b p).1 b p (v.fill b p).2 := by
  have h := (wellFormed_of_reachable hr).2
  have hdiff := fillDiff h b p
  refine ⟨fun b' a x => ?_, fun b' a x => ?_, hdiff.nodup_links (namesOnce_fill h b p),
    hdiff.linkedBack⟩
  · by_cases hb : b' = b
    · rw [hb]
      exact hdiff.gained_iff.trans (iff_and_self.mpr fun _ => rfl)
    · rw [viewOf_fill_of_ne v hb]
      exact iff_of_false (fun hx => hx.2 hx.1) fun hx => hb hx.1
  · by_cases hb : b' = b
    · rw [hb]
      exact hdiff.lost_iff.trans (iff_and_self.mpr fun _ => rfl)
    · rw [viewOf_fill_of_ne v hb]
      exact iff_of_false (fun hx => hx.2 hx.1) fun hx => hb hx.1

/-- In a full audience a newcomer's fill evicts: the report has a link of each kind. -/
theorem fill_reportsExactly_crowded :
    let before := [NeighborOp.add "live" "p", .add "live" "q", .fill "live" "q",
      .add "live" "r"].foldl applyOp (.new 1 (always ⟨0, by decide⟩))
    ((before.fill "live" "r").2.gained "r", (before.fill "live" "r").2.lost)
        = ([("r", "p"), ("p", "r")], [("p", "q")]) ∧
      ReportsExactly before (before.fill "live" "r").1 "live" "r" (before.fill "live" "r").2 := by
  refine ⟨by decide +kernel, ?_⟩
  exact fill_reportsExactly (TransitionSystem.reachable_of_run ⟨_, rfl⟩
    ((system 1).run_eq_foldl (fun _ _ => rfl) _ _)) "live" "r"

end NeighborViews

end OpenStreamGrid
