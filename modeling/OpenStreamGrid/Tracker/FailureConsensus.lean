import OpenStreamGrid.Tracker.StoreInterchange
import OpenStreamGrid.Tracker.StoreParts

/-!
# What the failure consensus counts

A history of observations with the verdict of each. A report of a peer still
counted is ignored and leaves the counted time as it is, so a verdict follows the
reporters with a counted report in the window, not those with a recent one.
-/

namespace OpenStreamGrid

/-- A failure report with the clock reading it is observed at. -/
structure FailureObservation where
  observedAt : Timestamp
  broadcastId : BroadcastId
  reportedPeerId : PeerId
  report : PeerFailureReport
deriving DecidableEq

namespace FailureObservation

/-- What is reported: a peer and a reason, under the key of the consensus. -/
def subject (o : FailureObservation) : String :=
  PeerFailureConsensus.key o.broadcastId o.reportedPeerId o.report.reason

/-- A peer reports itself. -/
def ByItself (o : FailureObservation) : Prop := o.reportedPeerId = o.report.reporterId

instance (o : FailureObservation) : Decidable o.ByItself :=
  inferInstanceAs (Decidable (_ = _))

end FailureObservation

namespace PeerFailureConsensus

open FailureObservation

/-- Within a broadcast, a key is that of one peer and one reason. -/
theorem key_eq_iff {b : BroadcastId} {p p' : PeerId} {reason reason' : FailureReason} :
    key b p reason = key b p' reason' ↔ p = p' ∧ reason = reason' := by
  constructor
  · intro h
    have hnul : ("\x00" : String).toList = ['\x00'] := rfl
    have htext : (b.toList ++ '\x00' :: p.toList) ++ '\x00' :: reason.text.toList
        = (b.toList ++ '\x00' :: p'.toList) ++ '\x00' :: reason'.text.toList := by
      have hlist := congrArg String.toList h
      simp only [key, String.toList_append, hnul] at hlist
      simpa using hlist
    obtain ⟨hpair, hreason⟩ := append_nul_inj (plain_text reason) (plain_text reason') htext
    have hpeer : p.toList = p'.toList := List.cons.inj (List.append_cancel_left hpair) |>.2
    refine ⟨String.toList_injective hpeer, ?_⟩
    revert hreason
    cases reason <;> cases reason' <;> decide
  · rintro ⟨rfl, rfl⟩
    rfl

/-! ## Observations that left the window -/

theorem get?_expire {windowMs : ℤ} {t s : Timestamp} {m : OrderedMap PeerId Timestamp}
    {r : PeerId} :
    (expire windowMs t m).get? r = some s ↔ m.get? r = some s ∧ t - s < windowMs := by
  unfold expire
  rw [OrderedMap.get?_foldl_deleteIf m fun entry => t - entry.2 ≥ windowMs,
    Option.filter_eq_some_iff]
  simp only [decide_eq_true_eq, ge_iff_le, not_le]

theorem mem_expire {windowMs : ℤ} {t : Timestamp} {m : OrderedMap PeerId Timestamp} {r : PeerId} :
    r ∈ expire windowMs t m ↔ ∃ s, m.get? r = some s ∧ t - s < windowMs := by
  rw [OrderedMap.mem_iff_isSome, Option.isSome_iff_exists]
  exact exists_congr fun s => get?_expire

theorem size_expire_le (windowMs : ℤ) (t : Timestamp) (m : OrderedMap PeerId Timestamp) :
    (expire windowMs t m).size ≤ m.size := by
  rw [← OrderedMap.card_keys, ← OrderedMap.card_keys]
  apply Finset.card_le_card
  intro r hr
  obtain ⟨s, hs, -⟩ := mem_expire.mp (List.mem_toFinset.mp hr)
  exact List.mem_toFinset.mpr (OrderedMap.mem_of_get? hs)

/-! ## Histories -/

def observed (c : PeerFailureConsensus) (o : FailureObservation) : PeerFailureConsensus × Bool :=
  c.observe o.observedAt o.broadcastId o.reportedPeerId o.report

/-- The consensus after a history, and the observations with their verdicts. -/
def history (c : PeerFailureConsensus) (os : List FailureObservation) :
    PeerFailureConsensus × List (FailureObservation × Bool) :=
  os.foldl (fun past o => ((past.1.observed o).1, past.2 ++ [(o, (past.1.observed o).2)])) (c, [])

/-- The reports on a subject since it last triggered, those of a peer about itself
left out. -/
def sinceTrigger (k : String) (answered : List (FailureObservation × Bool)) :
    List FailureObservation :=
  answered.foldl
    (fun since x =>
      if x.1.subject = k ∧ ¬ x.1.ByItself then if x.2 then [] else since ++ [x.1] else since)
    []

/-- When one peer reported. -/
def reportTimes (since : List FailureObservation) (r : PeerId) : List Timestamp :=
  (since.filter fun x => x.report.reporterId = r).map FailureObservation.observedAt

/-- A report counts from its time on; repeats within the window are ignored. -/
def renew (windowMs : ℤ) (counted : Option Timestamp) (t : Timestamp) : Option Timestamp :=
  match counted with
  | none => some t
  | some s => if t - s < windowMs then some s else some t

/-- The time of the report that counts. -/
def countedAt (windowMs : ℤ) (times : List Timestamp) : Option Timestamp :=
  times.foldl (renew windowMs) none

/-- The reporters that `observe` counts at `o`: its own, and those whose counted
report is in the window. -/
def countedReporters (windowMs : ℤ) (since : List FailureObservation) (o : FailureObservation) :
    Finset PeerId :=
  insert o.report.reporterId
    ((since.map fun x => x.report.reporterId).toFinset.filter fun r =>
      (countedAt windowMs (reportTimes since r)).any fun s => o.observedAt - s < windowMs)

/-- The reporters whose latest report is in the window. -/
def latestReporters (windowMs : ℤ) (since : List FailureObservation) (o : FailureObservation) :
    Finset PeerId :=
  insert o.report.reporterId
    ((since.map fun x => x.report.reporterId).toFinset.filter fun r =>
      (reportTimes since r).getLast?.any fun s => o.observedAt - s < windowMs)

section Histories

variable {windowMs : ℤ} {k : String} {since : List FailureObservation} {o : FailureObservation}

theorem reportTimes_append (since : List FailureObservation) (o : FailureObservation)
    (r : PeerId) : reportTimes (since ++ [o]) r
      = if o.report.reporterId = r then reportTimes since r ++ [o.observedAt]
        else reportTimes since r := by
  unfold reportTimes
  rw [List.filter_append, List.map_append]
  split_ifs with hr
  · rw [List.filter_cons_of_pos (by simpa using hr)]
    rfl
  · rw [List.filter_cons_of_neg (by simpa using hr)]
    exact List.append_nil _

theorem countedAt_append (times : List Timestamp) (t : Timestamp) :
    countedAt windowMs (times ++ [t]) = renew windowMs (countedAt windowMs times) t :=
  List.foldl_append ..

theorem sinceTrigger_append (answered : List (FailureObservation × Bool)) (verdict : Bool) :
    sinceTrigger k (answered ++ [(o, verdict)])
      = if o.subject = k ∧ ¬ o.ByItself then
          if verdict then [] else sinceTrigger k answered ++ [o]
        else sinceTrigger k answered :=
  List.foldl_append ..

/-- Who has a counted report in the window has reported. -/
theorem mem_countedReporters {r : PeerId} :
    r ∈ countedReporters windowMs since o ↔ r = o.report.reporterId ∨
      ∃ s, countedAt windowMs (reportTimes since r) = some s ∧ o.observedAt - s < windowMs := by
  unfold countedReporters
  rw [Finset.mem_insert, Finset.mem_filter, List.mem_toFinset, Option.any_eq_true]
  simp only [decide_eq_true_eq]
  apply or_congr_right
  constructor
  · rintro ⟨-, hcounted⟩
    exact hcounted
  · rintro ⟨s, hs, hrecent⟩
    refine ⟨?_, s, hs, hrecent⟩
    have hne : reportTimes since r ≠ [] := by
      intro hnil
      rw [hnil] at hs
      exact absurd hs (by simp [countedAt])
    obtain ⟨t, ht⟩ := List.exists_mem_of_ne_nil _ hne
    obtain ⟨x, hx, -⟩ := List.mem_map.mp ht
    obtain ⟨hmem, hreporter⟩ := List.mem_filter.mp hx
    exact List.mem_map.mpr ⟨x, hmem, by simpa using hreporter⟩

end Histories

/-! ## What is stored after a history -/

/-- The reporters under a key, as far as `o` can see them, are those that count. -/
structure Tracks (quorum : ℕ) (windowMs : ℤ) (k : String) (now : Timestamp)
    (past : PeerFailureConsensus × List (FailureObservation × Bool)) : Prop where
  stored : ∀ {r s}, ((past.1.observations.get? k).getD ∅).get? r = some s →
    countedAt windowMs (reportTimes (sinceTrigger k past.2) r) = some s
  kept : ∀ {r s}, countedAt windowMs (reportTimes (sinceTrigger k past.2) r) = some s →
    now - s < windowMs → ((past.1.observations.get? k).getD ∅).get? r = some s
  below : ∀ {m}, past.1.observations.get? k = some m → m.size < quorum
  quorum_eq : past.1.quorum = quorum
  windowMs_eq : past.1.windowMs = windowMs

/-- The stored reporters that `observe` still sees. -/
def recent (c : PeerFailureConsensus) (o : FailureObservation) : OrderedMap PeerId Timestamp :=
  ((c.observations.get? o.subject).map (expire c.windowMs o.observedAt)).getD ∅

theorem get?_recent {c : PeerFailureConsensus} {o : FailureObservation} {r : PeerId}
    {s : Timestamp} : (c.recent o).get? r = some s ↔
      ((c.observations.get? o.subject).getD ∅).get? r = some s ∧ o.observedAt - s < c.windowMs := by
  unfold recent
  cases c.observations.get? o.subject with
  | none => simp
  | some m => exact get?_expire

theorem observed_of_byItself {c : PeerFailureConsensus} {o : FailureObservation}
    (h : o.ByItself) : c.observed o = (c, false) :=
  if_pos h

/-- Everything an observation can do under its own key. -/
theorem observed_cases {c : PeerFailureConsensus} {o : FailureObservation} (h : ¬ o.ByItself) :
    (o.report.reporterId ∈ c.recent o ∧ (c.observed o).2 = false ∧
      (c.observed o).1.observations.get? o.subject = some (c.recent o)) ∨
    (o.report.reporterId ∉ c.recent o ∧
      ((c.recent o).set o.report.reporterId o.observedAt).size < c.quorum ∧
      (c.observed o).2 = false ∧
      (c.observed o).1.observations.get? o.subject
        = some ((c.recent o).set o.report.reporterId o.observedAt)) ∨
    (o.report.reporterId ∉ c.recent o ∧
      c.quorum ≤ ((c.recent o).set o.report.reporterId o.observedAt).size ∧
      (c.observed o).2 = true ∧ (c.observed o).1.observations.get? o.subject = none) := by
  obtain ⟨hget, hverdict, -, -⟩ :=
    @observe_eq c o.observedAt o.broadcastId o.reportedPeerId o.report h
  have hafter := (hget o.subject).trans (if_pos rfl)
  change (c.observed o).1.observations.get? o.subject = _ at hafter
  change (c.observed o).2 = _ at hverdict
  have hat : observeAt c.quorum c.windowMs (c.observations.get? o.subject) o.observedAt
      o.report.reporterId
      = if o.report.reporterId ∈ c.recent o then (some (c.recent o), false)
        else if ((c.recent o).set o.report.reporterId o.observedAt).size < c.quorum then
          (some ((c.recent o).set o.report.reporterId o.observedAt), false)
        else (none, true) := rfl
  change _ = (observeAt c.quorum c.windowMs (c.observations.get? o.subject) o.observedAt
    o.report.reporterId).1 at hafter
  change _ = (observeAt c.quorum c.windowMs (c.observations.get? o.subject) o.observedAt
    o.report.reporterId).2 at hverdict
  rw [hafter, hverdict, hat]
  split_ifs with hmem hbelow
  · exact Or.inl ⟨hmem, rfl, rfl⟩
  · exact Or.inr (Or.inl ⟨hmem, hbelow, rfl, rfl⟩)
  · exact Or.inr (Or.inr ⟨hmem, not_lt.mp hbelow, rfl, rfl⟩)

theorem observed_config (c : PeerFailureConsensus) (o : FailureObservation) :
    (c.observed o).1.quorum = c.quorum ∧ (c.observed o).1.windowMs = c.windowMs := by
  by_cases hself : o.ByItself
  · rw [observed_of_byItself hself]
    exact ⟨rfl, rfl⟩
  · exact (@observe_eq c o.observedAt o.broadcastId o.reportedPeerId o.report hself).2.2

theorem observed_of_ne {c : PeerFailureConsensus} {o : FailureObservation} {k : String}
    (h : o.subject ≠ k) :
    (c.observed o).1.observations.get? k = c.observations.get? k := by
  by_cases hself : o.ByItself
  · rw [observed_of_byItself hself]
  · obtain ⟨hget, -⟩ :=
      @observe_eq c o.observedAt o.broadcastId o.reportedPeerId o.report hself
    exact (hget k).trans (if_neg (Ne.symm h))

section Verdicts

variable {quorum : ℕ} {windowMs : ℤ} {k : String} {now : Timestamp}
  {past : PeerFailureConsensus × List (FailureObservation × Bool)} {o : FailureObservation}

theorem Tracks.new (quorum : ℕ) (windowMs : ℤ) (k : String) (now : Timestamp) :
    Tracks quorum windowMs k now (PeerFailureConsensus.new quorum windowMs, []) where
  stored h := absurd h (by simp [PeerFailureConsensus.new])
  kept h := absurd h (by simp [sinceTrigger, reportTimes, countedAt])
  below h := absurd h (by simp [PeerFailureConsensus.new])
  quorum_eq := rfl
  windowMs_eq := rfl

namespace Tracks

/-- Time passes: fewer reports are in the window. -/
theorem later (h : Tracks quorum windowMs k now past) {t : Timestamp} (ht : now ≤ t) :
    Tracks quorum windowMs k t past where
  stored := h.stored
  kept hs hrecent := h.kept hs (lt_of_le_of_lt (sub_le_sub_right ht _) hrecent)
  below := h.below
  quorum_eq := h.quorum_eq
  windowMs_eq := h.windowMs_eq

/-- What `observe` sees is what counts in the window. -/
theorem get?_recent_iff (h : Tracks quorum windowMs o.subject o.observedAt past) {r : PeerId}
    {s : Timestamp} : (past.1.recent o).get? r = some s ↔
      countedAt windowMs (reportTimes (sinceTrigger o.subject past.2) r) = some s ∧
        o.observedAt - s < windowMs := by
  rw [get?_recent, h.windowMs_eq]
  constructor
  · rintro ⟨hs, hrecent⟩
    exact ⟨h.stored hs, hrecent⟩
  · rintro ⟨hs, hrecent⟩
    exact ⟨h.kept hs hrecent, hrecent⟩

theorem countedReporters_eq (h : Tracks quorum windowMs o.subject o.observedAt past) :
    countedReporters windowMs (sinceTrigger o.subject past.2) o
      = insert o.report.reporterId (past.1.recent o).keys.toFinset := by
  ext r
  rw [mem_countedReporters, Finset.mem_insert, List.mem_toFinset, ← OrderedMap.mem_iff_mem_keys,
    OrderedMap.mem_iff_isSome, Option.isSome_iff_exists]
  exact or_congr_right (exists_congr fun s => h.get?_recent_iff.symm)

theorem size_recent_le (h : Tracks quorum windowMs o.subject o.observedAt past)
    (hmem : o.report.reporterId ∈ past.1.recent o) : (past.1.recent o).size < quorum := by
  cases hstored : past.1.observations.get? o.subject with
  | none =>
      unfold recent at hmem
      rw [hstored] at hmem
      exact absurd hmem (OrderedMap.not_mem_empty _)
  | some m =>
      unfold recent
      rw [hstored]
      exact (size_expire_le _ _ m).trans_lt (h.below hstored)

/-- A verdict is a count. -/
theorem verdict_iff (h : Tracks quorum windowMs o.subject o.observedAt past) :
    (past.1.observed o).2 = true ↔ ¬ o.ByItself ∧
      quorum ≤ (countedReporters windowMs (sinceTrigger o.subject past.2) o).card := by
  by_cases hself : o.ByItself
  · rw [observed_of_byItself hself]
    simp [hself]
  · rw [h.countedReporters_eq]
    simp only [hself, not_false_eq_true, true_and]
    rcases observed_cases hself with ⟨hmem, hverdict, -⟩ | ⟨hmem, hsize, hverdict, -⟩
      | ⟨hmem, hsize, hverdict, -⟩
    · rw [Finset.insert_eq_of_mem (List.mem_toFinset.mpr hmem), OrderedMap.card_keys, hverdict]
      have hbelow := h.size_recent_le hmem
      simp [hbelow]
    all_goals
      have hcard : (insert o.report.reporterId (past.1.recent o).keys.toFinset).card
          = ((past.1.recent o).set o.report.reporterId o.observedAt).size := by
        rw [← OrderedMap.card_keys]
        congr 1
        ext r
        rw [Finset.mem_insert, List.mem_toFinset, List.mem_toFinset,
          ← OrderedMap.mem_iff_mem_keys, ← OrderedMap.mem_iff_mem_keys, OrderedMap.mem_set, or_comm]
      rw [hcard, hverdict]
    · simpa [h.quorum_eq] using hsize
    · simpa [h.quorum_eq] using hsize

/-- The reports of the others count as before; a repeat of one still counted does not. -/
theorem countedAt_append_of_mem (h : Tracks quorum windowMs o.subject o.observedAt past)
    (hmem : o.report.reporterId ∈ past.1.recent o) (r : PeerId) :
    countedAt windowMs (reportTimes (sinceTrigger o.subject past.2 ++ [o]) r)
      = countedAt windowMs (reportTimes (sinceTrigger o.subject past.2) r) := by
  rw [reportTimes_append]
  split_ifs with hr
  · obtain ⟨s, hs⟩ := OrderedMap.get?_of_mem hmem
    obtain ⟨hcounted, hrecent⟩ := h.get?_recent_iff.mp hs
    rw [← hr, countedAt_append, hcounted]
    exact if_pos hrecent
  · rfl

/-- A new reporter counts from its report on, whatever of it expired. -/
theorem countedAt_append_of_not_mem (h : Tracks quorum windowMs o.subject o.observedAt past)
    (hmem : o.report.reporterId ∉ past.1.recent o) (r : PeerId) :
    countedAt windowMs (reportTimes (sinceTrigger o.subject past.2 ++ [o]) r)
      = if o.report.reporterId = r then some o.observedAt
        else countedAt windowMs (reportTimes (sinceTrigger o.subject past.2) r) := by
  rw [reportTimes_append]
  split_ifs with hr
  · rw [countedAt_append]
    cases hcounted : countedAt windowMs (reportTimes (sinceTrigger o.subject past.2) r) with
    | none => rfl
    | some s =>
        refine if_neg fun hrecent => hmem ?_
        rw [hr]
        exact OrderedMap.mem_of_get? (h.get?_recent_iff.mpr ⟨hcounted, hrecent⟩)
  · rfl

/-- One more observation, at the time of which everything older has been looked at. -/
theorem observe (h : Tracks quorum windowMs k o.observedAt past) :
    Tracks quorum windowMs k o.observedAt
      ((past.1.observed o).1, past.2 ++ [(o, (past.1.observed o).2)]) := by
  obtain ⟨hquorum, hwindow⟩ := observed_config past.1 o
  by_cases hself : o.ByItself
  · have hsince : sinceTrigger k (past.2 ++ [(o, (past.1.observed o).2)])
        = sinceTrigger k past.2 := by
      rw [sinceTrigger_append, if_neg fun hk => hk.2 hself]
    rw [observed_of_byItself hself] at hsince ⊢
    exact ⟨by rw [hsince]; exact h.stored, by rw [hsince]; exact h.kept, h.below, h.quorum_eq,
      h.windowMs_eq⟩
  by_cases hk : o.subject = k
  swap
  · have hsince : sinceTrigger k (past.2 ++ [(o, (past.1.observed o).2)])
        = sinceTrigger k past.2 := by
      rw [sinceTrigger_append, if_neg fun h => hk h.1]
    have hget := observed_of_ne (c := past.1) hk
    refine ⟨?_, ?_, ?_, hquorum.trans h.quorum_eq, hwindow.trans h.windowMs_eq⟩
    · rw [hsince, hget]
      exact h.stored
    · rw [hsince, hget]
      exact h.kept
    · rw [hget]
      exact h.below
  subst hk
  have hsince : sinceTrigger o.subject (past.2 ++ [(o, (past.1.observed o).2)])
      = if (past.1.observed o).2 then [] else sinceTrigger o.subject past.2 ++ [o] := by
    rw [sinceTrigger_append, if_pos ⟨rfl, hself⟩]
  rcases observed_cases hself with ⟨hmem, hverdict, hget⟩ | ⟨hmem, hsize, hverdict, hget⟩
    | ⟨hmem, hsize, hverdict, hget⟩
  · -- a repeat: the expired reporters are gone, the rest is as it was
    rw [hverdict, if_neg Bool.false_ne_true] at hsince
    rw [hverdict]
    refine ⟨?_, ?_, ?_, hquorum.trans h.quorum_eq, hwindow.trans h.windowMs_eq⟩
    · intro r s hs
      rw [hget] at hs
      rw [hsince, h.countedAt_append_of_mem hmem]
      exact (h.get?_recent_iff.mp hs).1
    · intro r s hs hrecent
      rw [hsince, h.countedAt_append_of_mem hmem] at hs
      rw [hget]
      exact h.get?_recent_iff.mpr ⟨hs, hrecent⟩
    · intro m hm
      obtain rfl := Option.some.inj (hget.symm.trans hm)
      exact h.size_recent_le hmem
  · rw [hverdict, if_neg Bool.false_ne_true] at hsince
    rw [hverdict]
    refine ⟨?_, ?_, ?_, hquorum.trans h.quorum_eq, hwindow.trans h.windowMs_eq⟩
    · intro r s hs
      rw [hget] at hs
      rw [hsince, h.countedAt_append_of_not_mem hmem]
      change ((past.1.recent o).set _ _).get? r = some s at hs
      rw [OrderedMap.get?_set] at hs
      split_ifs at hs ⊢ with hr hr' hr'
      · exact hs
      · exact absurd hr.symm hr'
      · exact absurd hr'.symm hr
      · exact (h.get?_recent_iff.mp hs).1
    · intro r s hs hrecent
      rw [hsince, h.countedAt_append_of_not_mem hmem] at hs
      rw [hget]
      change ((past.1.recent o).set _ _).get? r = some s
      rw [OrderedMap.get?_set]
      split_ifs at hs ⊢ with hr hr' hr'
      · exact hs
      · exact absurd hr.symm hr'
      · exact absurd hr'.symm hr
      · exact h.get?_recent_iff.mpr ⟨hs, hrecent⟩
    · intro m hm
      obtain rfl := Option.some.inj (hget.symm.trans hm)
      exact h.quorum_eq ▸ hsize
  · -- triggered: nothing counts any more
    rw [hverdict, if_pos rfl] at hsince
    rw [hverdict]
    refine ⟨?_, ?_, ?_, hquorum.trans h.quorum_eq, hwindow.trans h.windowMs_eq⟩
    · intro r s hs
      rw [hget] at hs
      exact absurd hs (by simp)
    · intro r s hs
      rw [hsince] at hs
      exact absurd hs (by simp [reportTimes, countedAt])
    · intro m hm
      exact absurd (hget.symm.trans hm) (by simp)

end Tracks

theorem history_append (c : PeerFailureConsensus) (os : List FailureObservation)
    (o : FailureObservation) : c.history (os ++ [o])
      = (((c.history os).1.observed o).1,
        (c.history os).2 ++ [(o, ((c.history os).1.observed o).2)]) :=
  List.foldl_append ..

/-- Over a history with a non-decreasing clock. -/
theorem Tracks.history {os : List FailureObservation} :
    os.Pairwise (fun x y => x.observedAt ≤ y.observedAt) → (∀ x ∈ os, x.observedAt ≤ now) →
    Tracks quorum windowMs k now ((PeerFailureConsensus.new quorum windowMs).history os) := by
  induction os using List.reverseRecOn generalizing now with
  | nil => exact fun _ _ => .new quorum windowMs k now
  | append_singleton os o ih =>
      intro hsorted hbefore
      obtain ⟨hos, -, hlast⟩ := List.pairwise_append.mp hsorted
      have htracks := ih hos fun x hx => hlast x hx o (List.mem_singleton_self o)
      rw [history_append]
      exact htracks.observe.later (hbefore o (List.mem_append_right os (List.mem_singleton_self o)))

/-! ## Counted and latest reports -/

theorem sinceTrigger_sublist (k : String) (answered : List (FailureObservation × Bool)) :
    (sinceTrigger k answered).Sublist (answered.map Prod.fst) := by
  induction answered using List.reverseRecOn with
  | nil => exact List.Sublist.refl _
  | append_singleton answered x ih =>
      rw [sinceTrigger_append, List.map_append]
      split_ifs
      · exact List.nil_sublist _
      · exact ih.append (List.Sublist.refl _)
      · exact ih.trans (List.sublist_append_left _ _)

theorem map_fst_history (c : PeerFailureConsensus) (os : List FailureObservation) :
    (c.history os).2.map Prod.fst = os := by
  induction os using List.reverseRecOn with
  | nil => rfl
  | append_singleton os o ih =>
      rw [history_append, List.map_append, ih]
      rfl

theorem mem_of_countedAt {times : List Timestamp} {s : Timestamp} :
    countedAt windowMs times = some s → s ∈ times := by
  induction times using List.reverseRecOn with
  | nil => exact fun h => absurd h (by simp [countedAt])
  | append_singleton times t ih =>
      intro h
      rw [countedAt_append] at h
      rw [List.mem_append, List.mem_singleton]
      cases hcounted : countedAt windowMs times with
      | none =>
          rw [hcounted] at h
          exact Or.inr (Option.some.inj h).symm
      | some s' =>
          rw [hcounted] at h
          unfold renew at h
          dsimp only at h
          split_ifs at h
          · exact Or.inl (ih (hcounted.trans h))
          · exact Or.inr (Option.some.inj h).symm

/-- Who counts has reported in the window, so its latest report is in it. -/
theorem countedReporters_subset {since : List FailureObservation}
    (hsorted : since.Pairwise fun x y => x.observedAt ≤ y.observedAt) :
    countedReporters windowMs since o ⊆ latestReporters windowMs since o := by
  apply Finset.insert_subset_insert
  intro r hr
  obtain ⟨hmem, hcounted⟩ := Finset.mem_filter.mp hr
  refine Finset.mem_filter.mpr ⟨hmem, ?_⟩
  simp only [Option.any_eq_true, decide_eq_true_eq] at hcounted ⊢
  obtain ⟨s, hs, hrecent⟩ := hcounted
  have htimes : (reportTimes since r).Pairwise (· ≤ ·) :=
    List.pairwise_map.mpr (hsorted.sublist List.filter_sublist)
  rcases List.eq_nil_or_concat (reportTimes since r) with hnil | ⟨front, last, hlast⟩
  · rw [hnil] at hs
    exact absurd hs (by simp [countedAt])
  · have hle : s ≤ last := by
      have hmem := mem_of_countedAt hs
      rw [hlast, List.concat_eq_append] at htimes hmem
      rcases List.mem_append.mp hmem with hfront | heq
      · exact (List.pairwise_append.mp htimes).2.2 s hfront last (List.mem_singleton_self last)
      · exact (List.mem_singleton.mp heq).le
    refine ⟨last, ?_, lt_of_le_of_lt (sub_le_sub_left hle _) hrecent⟩
    rw [hlast, List.concat_eq_append, List.getLast?_append]
    rfl

end Verdicts

/-! ## One reporter alone -/

/-- Everything stored under a key comes from one reporter. -/
def OnlyFrom (k : String) (r : PeerId) (c : PeerFailureConsensus) : Prop :=
  ∀ m, c.observations.get? k = some m → ∀ r' ∈ m, r' = r

namespace OnlyFrom

variable {k : String} {r : PeerId} {c : PeerFailureConsensus} {o : FailureObservation}

theorem new (k : String) (r : PeerId) (quorum : ℕ) (windowMs : ℤ) :
    OnlyFrom k r (PeerFailureConsensus.new quorum windowMs) := by
  intro m hm
  exact absurd hm (by simp [PeerFailureConsensus.new])

theorem recent (h : OnlyFrom o.subject r c) {r' : PeerId} (hr' : r' ∈ c.recent o) : r' = r := by
  obtain ⟨s, hs⟩ := OrderedMap.get?_of_mem hr'
  have hstored := (get?_recent.mp hs).1
  cases hm : c.observations.get? o.subject with
  | none =>
      rw [hm] at hstored
      exact absurd hstored (by simp)
  | some m =>
      rw [hm] at hstored
      exact h m hm r' (OrderedMap.mem_of_get? hstored)

theorem observed (h : OnlyFrom k r c) (ho : o.subject = k → o.report.reporterId = r) :
    OnlyFrom k r (c.observed o).1 := by
  by_cases hself : o.ByItself
  · rw [observed_of_byItself hself]
    exact h
  by_cases hk : o.subject = k
  · subst hk
    intro m hm r' hr'
    rcases observed_cases hself with ⟨-, -, hget⟩ | ⟨-, -, -, hget⟩ | ⟨-, -, -, hget⟩
    · obtain rfl := Option.some.inj (hget.symm.trans hm)
      exact h.recent hr'
    · obtain rfl := Option.some.inj (hget.symm.trans hm)
      rcases OrderedMap.mem_set.mp hr' with hold | hnew
      · exact h.recent hold
      · exact hnew.trans (ho rfl)
    · exact absurd (hget.symm.trans hm) (by simp)
  · intro m hm
    rw [observed_of_ne hk] at hm
    exact h m hm

/-- It never reaches a quorum of two. -/
theorem verdict (h : OnlyFrom o.subject o.report.reporterId c) (hquorum : 2 ≤ c.quorum) :
    (c.observed o).2 = false := by
  by_cases hself : o.ByItself
  · rw [observed_of_byItself hself]
  rcases observed_cases hself with ⟨-, hverdict, -⟩ | ⟨-, -, hverdict, -⟩ | ⟨-, hsize, -, -⟩
  · exact hverdict
  · exact hverdict
  · have hone : ((c.recent o).set o.report.reporterId o.observedAt).size ≤ 1 := by
      rw [← OrderedMap.card_keys]
      apply Finset.card_le_one_iff.mpr
      have hall : ∀ r' ∈ ((c.recent o).set o.report.reporterId o.observedAt).keys.toFinset,
          r' = o.report.reporterId := by
        intro r' hr'
        rcases OrderedMap.mem_set.mp (List.mem_toFinset.mp hr') with hold | hnew
        · exact h.recent hold
        · exact hnew
      intro r₁ r₂ h₁ h₂
      exact (hall r₁ h₁).trans (hall r₂ h₂).symm
    omega

end OnlyFrom

theorem history_config (c : PeerFailureConsensus) (os : List FailureObservation) :
    (c.history os).1.quorum = c.quorum ∧ (c.history os).1.windowMs = c.windowMs := by
  induction os using List.reverseRecOn with
  | nil => exact ⟨rfl, rfl⟩
  | append_singleton os o ih =>
      rw [history_append]
      obtain ⟨hquorum, hwindow⟩ := observed_config (c.history os).1 o
      exact ⟨hquorum.trans ih.1, hwindow.trans ih.2⟩

theorem OnlyFrom.history {k : String} {r : PeerId} {c : PeerFailureConsensus}
    (h : OnlyFrom k r c) {os : List FailureObservation} :
    (∀ x ∈ os, x.subject = k → x.report.reporterId = r) → OnlyFrom k r (c.history os).1 := by
  induction os using List.reverseRecOn with
  | nil => exact fun _ => h
  | append_singleton os o ih =>
      intro hall
      rw [history_append]
      exact (ih fun x hx => hall x (List.mem_append_left _ hx)).observed
        (hall o (List.mem_append_right os (List.mem_singleton_self o)))

end PeerFailureConsensus

/-! ## The reports of a store -/

namespace TrackerStore

theorem CallEffect.failureConsensus {s s' : TrackerStore} {t : Timestamp} {op : StoreOp}
    (h : CallEffect s t op s') (htarget : op.target = none) :
    s'.failureConsensus = s.failureConsensus := by
  cases h with
  | kept => rfl
  | registered registration =>
      unfold registerBroadcast
      cases s.broadcasts.get? registration.id <;> rfl
  | unregistered => rfl
  | left b p => exact failureConsensus_retirePeers [⟨b, p⟩] s
  | swept maxAgeMs => exact failureConsensus_retirePeers _ s
  | joined => rfl
  | written hsome => exact absurd (hsome.symm.trans htarget) (by simp)

/-- Only a failure report is observed. -/
theorem next_failureConsensus (s : TrackerStore) (maxSegmentsPerPeer : ℕ) (t : Timestamp)
    (op : StoreOp) :
    ((backend maxSegmentsPerPeer).next s t op).failureConsensus = s.failureConsensus ∨
    ∃ b p report, op = .reportPeerFailure b p report ∧
      ((backend maxSegmentsPerPeer).next s t op).failureConsensus
        = (s.failureConsensus.observe t b p report).1 := by
  let Kept (s' : TrackerStore) : Prop := s'.failureConsensus = s.failureConsensus
  have hmodify : ∀ {b p f s' peer}, s.modifyPeer b p f = .ok (s', peer) → Kept s' := by
    intro b p f s' peer hok
    obtain ⟨state, old, -, -, rfl, -⟩ := modifyPeer_ok.mp hok
    rfl
  have heffect := next_effect s maxSegmentsPerPeer t op
  cases op with
  | reportPeerFailure b p report =>
      show _ ∨ _
      refine stateAfter_returning (P := fun s' => Kept s' ∨
        ∃ b' p' report', StoreOp.reportPeerFailure b p report = .reportPeerFailure b' p' report' ∧
          s'.failureConsensus = (s.failureConsensus.observe t b' p' report').1)
        (Or.inl rfl) fun s' peer hok => ?_
      obtain ⟨state, old, _, _, -, -, rfl, -⟩ := reportPeerFailure_ok hok
      exact Or.inr ⟨b, p, report, rfl, rfl⟩
  | reportSegments b p segments replace =>
      exact Or.inl (stateAfter_returning (P := Kept) rfl fun s' peer hok => hmodify hok)
  | applySegmentDelta b p added removed =>
      exact Or.inl (stateAfter_returning (P := Kept) rfl fun s' peer hok => hmodify hok)
  | heartbeat b p heartbeat =>
      exact Or.inl (stateAfter_returning (P := Kept) rfl fun s' peer hok => hmodify hok)
  | reportStats b p stats =>
      refine Or.inl (stateAfter_writing (P := Kept) rfl fun s' hok => ?_)
      change (s.reportStats t b p stats).map Prod.fst = _ at hok
      cases hr : s.reportStats t b p stats with
      | error e =>
          rw [hr] at hok
          exact absurd hok (by simp [Except.map])
      | ok result =>
          rw [hr] at hok
          obtain rfl := Except.ok.inj hok
          exact hmodify hr
  | _ => exact Or.inl (heffect.failureConsensus rfl)

/-- Every failure report on `k` among the calls is by one reporter. -/
def ReportedOnlyBy (k : String) (r : PeerId) (calls : List (Timestamp × StoreOp)) : Prop :=
  ∀ call ∈ calls, ∀ b p report, call.2 = .reportPeerFailure b p report →
    PeerFailureConsensus.key b p report.reason = k → report.reporterId = r

theorem onlyFrom_afterCalls {maxSegmentsPerPeer : ℕ} {k : String} {r : PeerId}
    {calls : List (Timestamp × StoreOp)} : ReportedOnlyBy k r calls →
    ((backend maxSegmentsPerPeer).afterCalls calls).failureConsensus.OnlyFrom k r ∧
      ((backend maxSegmentsPerPeer).afterCalls calls).failureConsensus.quorum
        = DEFAULT_FAILURE_QUORUM := by
  induction calls using List.reverseRecOn with
  | nil => exact fun _ => ⟨.new k r _ _, rfl⟩
  | append_singleton calls call ih =>
      intro hall
      obtain ⟨hfrom, hquorum⟩ := ih fun c hc => hall c (List.mem_append_left _ hc)
      have happend : (backend maxSegmentsPerPeer).afterCalls (calls ++ [call])
          = (backend maxSegmentsPerPeer).next ((backend maxSegmentsPerPeer).afterCalls calls)
            call.1 call.2 :=
        List.foldl_append ..
      rw [happend]
      rcases next_failureConsensus ((backend maxSegmentsPerPeer).afterCalls calls)
          maxSegmentsPerPeer call.1 call.2 with hkept | ⟨b, p, report, hop, hobserved⟩
      · rw [hkept]
        exact ⟨hfrom, hquorum⟩
      · rw [hobserved]
        have hr := hall call (List.mem_append_right calls (List.mem_singleton_self call)) b p report
          hop
        exact ⟨hfrom.observed (o := ⟨call.1, b, p, report⟩) hr,
          (PeerFailureConsensus.observed_config _ ⟨call.1, b, p, report⟩).1.trans hquorum⟩

/-- An unconfirmed report changes no peer. -/
theorem broadcasts_reportPeerFailure {s : TrackerStore} {maxSegmentsPerPeer : ℕ} {t : Timestamp}
    {b : BroadcastId} {p : PeerId} {report : PeerFailureReport}
    (h : (s.failureConsensus.observe t b p report).2 = false) :
    ((backend maxSegmentsPerPeer).next s t (.reportPeerFailure b p report)).broadcasts
      = s.broadcasts := by
  refine stateAfter_returning (P := fun s' : TrackerStore => s'.broadcasts = s.broadcasts) rfl
    fun s' peer hok => ?_
  change s.reportPeerFailure t b p report = _ at hok
  unfold reportPeerFailure at hok
  cases hreported : s.requirePeer b p with
  | error e =>
      rw [hreported] at hok
      exact absurd hok (by simp)
  | ok reported =>
      cases hreporter : s.requirePeer b report.reporterId with
      | error e =>
          rw [hreported, hreporter] at hok
          exact absurd hok (by simp)
      | ok reporter =>
          rw [hreported, hreporter] at hok
          dsimp only at hok
          rw [h, if_neg Bool.false_ne_true] at hok
          obtain ⟨rfl, -⟩ := Prod.mk.inj (Except.ok.inj hok)
          rfl

end TrackerStore

namespace PeerFailureConsensus

/-- **A verdict counts reporters.** A report triggers when it is not of a peer about
itself and a quorum of reporters counts in the window since the last trigger, each
of which then reported in the window; one reporter alone never triggers a quorum of
two, and never changes a stored peer. -/
theorem observe_iff_counted (quorum : ℕ) (windowMs : ℤ) (earlier : List FailureObservation)
    (o : FailureObservation)
    (hsorted : (earlier ++ [o]).Pairwise fun x y => x.observedAt ≤ y.observedAt) :
    ((((new quorum windowMs).history earlier).1.observed o).2 = true ↔ ¬ o.ByItself ∧
      quorum ≤ (countedReporters windowMs
        (sinceTrigger o.subject ((new quorum windowMs).history earlier).2) o).card) ∧
    countedReporters windowMs (sinceTrigger o.subject ((new quorum windowMs).history earlier).2) o
      ⊆ latestReporters windowMs
        (sinceTrigger o.subject ((new quorum windowMs).history earlier).2) o ∧
    (∀ x y : FailureObservation, x.broadcastId = y.broadcastId →
      (x.subject = y.subject ↔
        x.reportedPeerId = y.reportedPeerId ∧ x.report.reason = y.report.reason)) ∧
    (2 ≤ quorum →
      (∀ x ∈ earlier, x.subject = o.subject → x.report.reporterId = o.report.reporterId) →
      (((new quorum windowMs).history earlier).1.observed o).2 = false) ∧
    (∀ (maxSegmentsPerPeer : ℕ) (calls : List (Timestamp × StoreOp)) (t : Timestamp)
      (b : BroadcastId) (p : PeerId) (report : PeerFailureReport),
      TrackerStore.ReportedOnlyBy (key b p report.reason) report.reporterId calls →
      ((TrackerStore.backend maxSegmentsPerPeer).next
          ((TrackerStore.backend maxSegmentsPerPeer).afterCalls calls) t
          (.reportPeerFailure b p report)).broadcasts
        = ((TrackerStore.backend maxSegmentsPerPeer).afterCalls calls).broadcasts) := by
  obtain ⟨hearlier, -, hlast⟩ := List.pairwise_append.mp hsorted
  have htracks : Tracks quorum windowMs o.subject o.observedAt
      ((new quorum windowMs).history earlier) :=
    Tracks.history hearlier fun x hx => hlast x hx o (List.mem_singleton_self o)
  have hconfig := history_config (new quorum windowMs) earlier
  refine ⟨htracks.verdict_iff, ?_, ?_, ?_, ?_⟩
  · apply countedReporters_subset
    have hsub := sinceTrigger_sublist o.subject ((new quorum windowMs).history earlier).2
    rw [map_fst_history] at hsub
    exact hearlier.sublist hsub
  · intro x y hb
    unfold FailureObservation.subject
    rw [hb]
    exact key_eq_iff
  · intro hquorum hall
    have hfrom := (OnlyFrom.new o.subject o.report.reporterId quorum windowMs).history hall
    exact hfrom.verdict (hquorum.trans hconfig.1.ge)
  · intro maxSegmentsPerPeer calls t b p report hall
    obtain ⟨hfrom, hquorum⟩ :=
      @TrackerStore.onlyFrom_afterCalls maxSegmentsPerPeer _ _ _ hall
    apply TrackerStore.broadcasts_reportPeerFailure
    exact OnlyFrom.verdict (o := ⟨t, b, p, report⟩) hfrom hquorum.ge

/-- Two reporters a second apart reach a quorum of two. -/
theorem observe_iff_counted_pair :
    (((new 2 60000).history [⟨0, "b", "p", ⟨"q", .timeout⟩⟩]).1.observed
      ⟨1000, "b", "p", ⟨"r", .timeout⟩⟩).2 = true :=
  (observe_iff_counted 2 60000 [⟨0, "b", "p", ⟨"q", .timeout⟩⟩] ⟨1000, "b", "p", ⟨"r", .timeout⟩⟩
    (by decide)).1.mpr (by decide +kernel)

/-- A repeat does not renew: the first report of `q` has left the window when `r`
reports, its second, ten seconds old, was ignored. -/
theorem repeated_report_not_counted :
    ¬ ((((new 2 60000).history [⟨0, "b", "p", ⟨"q", .timeout⟩⟩,
        ⟨50000, "b", "p", ⟨"q", .timeout⟩⟩]).1.observed
          ⟨70000, "b", "p", ⟨"r", .timeout⟩⟩).2 = true ↔
      ¬ FailureObservation.ByItself ⟨70000, "b", "p", ⟨"r", .timeout⟩⟩ ∧
      2 ≤ (latestReporters 60000
        (sinceTrigger (FailureObservation.subject ⟨70000, "b", "p", ⟨"r", .timeout⟩⟩)
          ((new 2 60000).history [⟨0, "b", "p", ⟨"q", .timeout⟩⟩,
            ⟨50000, "b", "p", ⟨"q", .timeout⟩⟩]).2)
        ⟨70000, "b", "p", ⟨"r", .timeout⟩⟩).card) := by
  decide +kernel

end PeerFailureConsensus

end OpenStreamGrid
