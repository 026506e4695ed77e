import OpenStreamGrid.Common.Types

/-!
# Limits on segment inventory reports

The tracker relays every report, so the size of one report is bounded whichever
interface (REST or WebSocket) it arrives on.
-/

namespace OpenStreamGrid

def MAX_SEGMENTS_PER_REPORT : ℕ := 512
def MAX_SEGMENT_ID_LENGTH : ℕ := 512

/-- A list a report may carry: not too long, and no empty or oversized ID. -/
def ValidSegmentIdList (value : List String) : Prop :=
  value.length ≤ MAX_SEGMENTS_PER_REPORT ∧
    ∀ segment ∈ value, utf16Length segment ≠ 0 ∧ utf16Length segment ≤ MAX_SEGMENT_ID_LENGTH

instance (value : List String) : Decidable (ValidSegmentIdList value) :=
  inferInstanceAs (Decidable (_ ∧ _))

/-- The segment IDs in `value`, or nothing unless it is a valid report list. -/
def segmentIdList (value : List String) : Option (List SegmentId) :=
  if value.length > MAX_SEGMENTS_PER_REPORT ∨
      value.any (fun segment =>
        utf16Length segment = 0 || decide (utf16Length segment > MAX_SEGMENT_ID_LENGTH)) then
    none
  else some value

theorem segmentIdList_eq_some {value segments : List SegmentId} :
    segmentIdList value = some segments ↔ segments = value ∧ ValidSegmentIdList value := by
  unfold segmentIdList
  split_ifs with h
  · simp only [false_iff, not_and]
    rintro rfl ⟨hlength, hids⟩
    rcases h with h | h
    · omega
    · rw [List.any_eq_true] at h
      obtain ⟨segment, hmem, hbad⟩ := h
      have hgood := hids segment hmem
      simp only [Bool.or_eq_true, decide_eq_true_eq] at hbad
      omega
  · rw [not_or, List.any_eq_true] at h
    simp only [Option.some.injEq]
    constructor
    · rintro rfl
      refine ⟨rfl, Nat.le_of_not_lt h.1, fun segment hmem => ?_⟩
      have hgood : ¬ _ := fun hbad => h.2 ⟨segment, hmem, hbad⟩
      simp only [Bool.or_eq_true, decide_eq_true_eq] at hgood
      omega
    · rintro ⟨rfl, -⟩
      rfl

end OpenStreamGrid
