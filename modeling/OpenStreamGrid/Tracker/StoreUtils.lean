import OpenStreamGrid.Common.Types
import Mathlib.Algebra.BigOperators.Group.List.Basic
import Mathlib.Algebra.Order.BigOperators.Group.List

/-!
# Store utilities

The helpers both tracker stores share: normalization of reported counters, the
quality penalty of a confirmed failure, the failure consensus, and the caps on a
peer's segment inventory.
-/

namespace OpenStreamGrid

/-! ## Reported counters and quality -/

/-- One counter as it is persisted: the integer part of a finite non-negative
number, and zero for everything else. -/
def sanitizePeerTrafficStat : JsNumber → ℕ
  | .finite value => if 0 ≤ value then ⌊value⌋.toNat else 0
  | _ => 0

/-- Normalizes traffic counters before persistence. -/
def sanitizePeerTrafficStats (stats : TrafficRecord JsNumber) : PeerTrafficStats :=
  fun key => sanitizePeerTrafficStat (stats key)

/-- Whole counters pass unchanged. -/
@[simp] theorem sanitizePeerTrafficStats_natCast (stats : PeerTrafficStats) :
    sanitizePeerTrafficStats (fun key => .finite (stats key : ℚ)) = stats := by
  funext key
  have h : (0 : ℚ) ≤ (stats key : ℚ) := Nat.cast_nonneg _
  simp only [sanitizePeerTrafficStats, sanitizePeerTrafficStat, if_pos h]
  rw [Int.floor_natCast, Int.toNat_natCast]

def CONNECTION_FAILURE_PENALTY : ℚ := 1 / 10
def INTEGRITY_FAILURE_PENALTY : ℚ := 35 / 100
def SUCCESS_RATE_PENALTY_FACTOR : ℚ := 1 / 2

/-- The trust score and success rate left after one confirmed failure. -/
def penalizePeerQuality (trustScore successRate : UnitInterval) (reason : FailureReason) :
    UnitInterval × UnitInterval :=
  let penalty :=
    match reason with
    | .integrity => INTEGRITY_FAILURE_PENALTY
    | _ => CONNECTION_FAILURE_PENALTY
  (clampUnitInterval (trustScore.1 - penalty),
    clampUnitInterval (successRate.1 - penalty * SUCCESS_RATE_PENALTY_FACTOR))

/-! ## Failure consensus -/

def DEFAULT_FAILURE_QUORUM : ℕ := 2
def DEFAULT_FAILURE_WINDOW_MS : ℤ := 60000

/-- Requires independent, recent observations before changing global peer
trust: per broadcast, reported peer and reason, when each reporter last spoke. -/
structure PeerFailureConsensus where
  observations : OrderedMap String (OrderedMap PeerId Timestamp)
  quorum : ℕ
  windowMs : ℤ
deriving DecidableEq

namespace PeerFailureConsensus

def new (quorum : ℕ) (windowMs : ℤ) : PeerFailureConsensus := ⟨∅, quorum, windowMs⟩

def key (broadcastId : BroadcastId) (reportedPeerId : PeerId) (reason : FailureReason) :
    String :=
  broadcastId ++ "\x00" ++ reportedPeerId ++ "\x00" ++ reason.text

/-- Drop the observations that left the window. -/
def expire (windowMs : ℤ) (observedAt : Timestamp) (reporters : OrderedMap PeerId Timestamp) :
    OrderedMap PeerId Timestamp :=
  reporters.entries.foldl
    (fun kept entry => if observedAt - entry.2 ≥ windowMs then kept.delete entry.1 else kept)
    reporters

def observe (c : PeerFailureConsensus) (observedAt : Timestamp) (broadcastId : BroadcastId)
    (reportedPeerId : PeerId) (report : PeerFailureReport) : PeerFailureConsensus × Bool :=
  if reportedPeerId = report.reporterId then (c, false)
  else
    let k := key broadcastId reportedPeerId report.reason
    match c.observations.get? k with
    | none =>
        -- The fresh map is only stored below the quorum.
        let reporters := (∅ : OrderedMap PeerId Timestamp).set report.reporterId observedAt
        if reporters.size < c.quorum then
          ({ c with observations := c.observations.set k reporters }, false)
        else ({ c with observations := c.observations.delete k }, true)
    | some stored =>
        -- The stored map is expired and extended in place.
        let reporters := expire c.windowMs observedAt stored
        if report.reporterId ∈ reporters then
          ({ c with observations := c.observations.set k reporters }, false)
        else
          let reporters := reporters.set report.reporterId observedAt
          if reporters.size < c.quorum then
            ({ c with observations := c.observations.set k reporters }, false)
          else ({ c with observations := c.observations.delete k }, true)

end PeerFailureConsensus

/-! ## Inventory caps -/

/-- Total segment-ID characters kept per peer. -/
def MAX_INVENTORY_CHARACTERS_PER_PEER : ℕ := 128 * 1024

def totalCharacters (segments : List SegmentId) : ℕ := (segments.map utf16Length).sum

/-- Where the kept suffix begins, walking back from `start` with the characters
of what lies behind it. -/
def limitStart (segments : List SegmentId) (maxSegments maxCharacters : ℕ) : ℕ → ℕ → ℕ
  | 0, _ => 0
  | start + 1, characters =>
      if segments.length - (start + 1) < maxSegments then
        let length := (segments[start]?).elim 0 utf16Length
        if characters + length > maxCharacters then start + 1
        else limitStart segments maxSegments maxCharacters start (characters + length)
      else start + 1

/-- The newest segments of `segments` (later entries are newer) that fit in
`maxSegments` entries and `maxCharacters` characters of segment IDs. -/
def limitInventoryTo (segments : List SegmentId) (maxSegments maxCharacters : ℕ) :
    List SegmentId :=
  segments.drop (limitStart segments maxSegments maxCharacters segments.length 0)

/-- The caps the stores apply. -/
def limitInventory (segments : List SegmentId) (maxSegments : ℕ) : List SegmentId :=
  limitInventoryTo segments maxSegments MAX_INVENTORY_CHARACTERS_PER_PEER

/-- Within both caps. -/
def Fits (maxSegments maxCharacters : ℕ) (segments : List SegmentId) : Prop :=
  segments.length ≤ maxSegments ∧ totalCharacters segments ≤ maxCharacters

instance (maxSegments maxCharacters : ℕ) (segments : List SegmentId) :
    Decidable (Fits maxSegments maxCharacters segments) :=
  inferInstanceAs (Decidable (_ ∧ _))

/-- No cap is reached: the inventory fits both. -/
abbrev WithinCaps (maxSegments : ℕ) (segments : List SegmentId) : Prop :=
  Fits maxSegments MAX_INVENTORY_CHARACTERS_PER_PEER segments

theorem totalCharacters_append (xs ys : List SegmentId) :
    totalCharacters (xs ++ ys) = totalCharacters xs + totalCharacters ys := by
  simp [totalCharacters]

theorem Fits.perm {m c : ℕ} {xs ys : List SegmentId} (h : xs.Perm ys) :
    Fits m c xs ↔ Fits m c ys := by
  unfold Fits totalCharacters
  rw [h.length_eq, (h.map utf16Length).sum_eq]

theorem Fits.of_suffix {m c : ℕ} {xs ys : List SegmentId} (hs : ys <:+ xs)
    (h : Fits m c xs) : Fits m c ys := by
  obtain ⟨zs, rfl⟩ := hs
  have hlen := h.1
  have hchars := h.2
  rw [List.length_append] at hlen
  rw [totalCharacters_append] at hchars
  exact ⟨by omega, by omega⟩

/-- Distinct elements of a list that fits fit. -/
theorem Fits.of_subset {m c : ℕ} {xs ys : List SegmentId} (hnd : xs.Nodup) (hsub : xs ⊆ ys)
    (h : Fits m c ys) : Fits m c xs := by
  obtain ⟨zs, hzs, hsublist⟩ := List.subperm_of_subset hnd hsub
  apply (Fits.perm hzs).mp
  have hchars : totalCharacters zs ≤ totalCharacters ys :=
    (hsublist.map utf16Length).sum_le_sum fun _ _ => Nat.zero_le _
  exact ⟨hsublist.length_le.trans h.1, hchars.trans h.2⟩

theorem fits_nil (m c : ℕ) : Fits m c [] := ⟨Nat.zero_le _, Nat.zero_le _⟩

/-- The walk stops at the least start whose suffix fits. -/
private theorem limitStart_spec {m c : ℕ} {xs : List SegmentId} :
    ∀ start characters : ℕ, start ≤ xs.length →
      characters = totalCharacters (xs.drop start) → Fits m c (xs.drop start) →
      Fits m c (xs.drop (limitStart xs m c start characters)) ∧
        ∀ k < limitStart xs m c start characters, ¬ Fits m c (xs.drop k) := by
  intro start
  induction start with
  | zero =>
      intro characters _ _ hfits
      exact ⟨hfits, fun k hk => absurd hk (Nat.not_lt_zero k)⟩
  | succ start ih =>
      intro characters hle hchars hfits
      have hdrop : xs.drop start = xs[start] :: xs.drop (start + 1) :=
        List.drop_eq_getElem_cons hle
      have helim : (xs[start]?).elim 0 utf16Length = utf16Length xs[start] := by
        rw [List.getElem?_eq_getElem hle, Option.elim_some]
      have htotal : totalCharacters (xs.drop start) = utf16Length xs[start] + characters := by
        rw [hchars, totalCharacters, hdrop, List.map_cons, List.sum_cons, totalCharacters]
      have hlonger : ∀ k < start + 1, xs.drop start <:+ xs.drop k := by
        intro k hk
        exact List.drop_suffix_drop_left xs (by omega)
      simp only [limitStart, helim]
      by_cases hroom : xs.length - (start + 1) < m
      · rw [if_pos hroom]
        by_cases hover : characters + utf16Length xs[start] > c
        · rw [if_pos hover]
          refine ⟨hfits, fun k hk hk' => ?_⟩
          have := (hk'.of_suffix (hlonger k hk)).2
          omega
        · rw [if_neg hover]
          refine ih _ (by omega) (by omega) ⟨?_, by omega⟩
          rw [List.length_drop]
          omega
      · rw [if_neg hroom]
        refine ⟨hfits, fun k hk hk' => ?_⟩
        have := hk'.1
        rw [List.length_drop] at this
        omega

theorem limitInventoryTo_suffix (xs : List SegmentId) (m c : ℕ) :
    limitInventoryTo xs m c <:+ xs := List.drop_suffix _ _

theorem fits_limitInventoryTo (xs : List SegmentId) (m c : ℕ) :
    Fits m c (limitInventoryTo xs m c) :=
  (limitStart_spec xs.length 0 le_rfl (by simp [totalCharacters])
    (by simpa using fits_nil m c)).1

/-- **The caps keep the longest suffix that fits.** -/
theorem suffix_limitInventoryTo {xs ys : List SegmentId} {m c : ℕ} (hs : ys <:+ xs)
    (hfits : Fits m c ys) : ys <:+ limitInventoryTo xs m c := by
  have hleast := (limitStart_spec (m := m) (c := c) xs.length 0 le_rfl
    (by simp [totalCharacters]) (by simpa using fits_nil m c)).2
  have hys : ys = xs.drop (xs.length - ys.length) := List.suffix_iff_eq_drop.mp hs
  rw [hys] at hfits ⊢
  refine List.drop_suffix_drop_left xs (Nat.le_of_not_lt fun hlt => ?_)
  exact hleast _ hlt hfits

/-- Nothing is dropped exactly when everything fits. -/
theorem limitInventory_eq_self_iff {xs : List SegmentId} {m : ℕ} :
    limitInventory xs m = xs ↔ WithinCaps m xs := by
  constructor
  · intro h
    have := fits_limitInventoryTo xs m MAX_INVENTORY_CHARACTERS_PER_PEER
    rw [← h]
    exact this
  · intro h
    have hlong := suffix_limitInventoryTo (List.suffix_refl xs) h
    have hshort := limitInventoryTo_suffix xs m MAX_INVENTORY_CHARACTERS_PER_PEER
    exact hshort.eq_of_length (Nat.le_antisymm hshort.length_le hlong.length_le)

theorem limitInventory_sublist (xs : List SegmentId) (m : ℕ) :
    (limitInventory xs m).Sublist xs := (limitInventoryTo_suffix xs m _).sublist

theorem nodup_limitInventory {xs : List SegmentId} {m : ℕ} (h : xs.Nodup) :
    (limitInventory xs m).Nodup := (limitInventory_sublist xs m).nodup h

/-- Capping loses an element as soon as the list does not fit. -/
theorem exists_dropped_of_not_withinCaps {xs : List SegmentId} {m : ℕ} (hnd : xs.Nodup)
    (h : ¬ WithinCaps m xs) : ∃ x ∈ xs, x ∉ limitInventory xs m := by
  by_contra hall
  push Not at hall
  apply h
  rw [← limitInventory_eq_self_iff]
  have hsub : xs.length ≤ (limitInventory xs m).length :=
    (List.subperm_of_subset hnd hall).length_le
  exact (limitInventory_sublist xs m).eq_of_length_le hsub

end OpenStreamGrid
