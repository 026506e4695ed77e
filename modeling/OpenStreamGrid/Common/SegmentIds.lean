import OpenStreamGrid.Common.Types

/-!
# Segment paths

Which paths name a media segment that peers cache and share. Strings are lists
of characters here; the patterns are read off one character or suffix at a time.
-/

namespace OpenStreamGrid

/-- What `MEDIA_SEGMENT_EXTENSION_PATTERN` matches at the end of a path. -/
def mediaSegmentExtension? (value : String) : Option String :=
  if ".ts".toList.isSuffixOf value.toList then some ".ts"
  else if ".m4s".toList.isSuffixOf value.toList then some ".m4s"
  else none

/-- The characters of a path that needs no encoding. -/
def isSafePathCharacter (c : Char) : Bool :=
  c.isAlphanum || c = '-' || c = '_' || c = '.' || c = '/'

/-- A media segment path made of safe characters. -/
def isMediaSegmentPath (value : String) : Bool :=
  value ≠ "" && value.toList.all isSafePathCharacter && (mediaSegmentExtension? value).isSome

theorem isMediaSegmentPath_iff {value : String} : isMediaSegmentPath value = true ↔
    value ≠ "" ∧ (∀ c ∈ value.toList, isSafePathCharacter c = true) ∧
      (mediaSegmentExtension? value).isSome = true := by
  simp only [isMediaSegmentPath, Bool.and_eq_true, decide_eq_true_eq, List.all_eq_true, ne_eq,
    and_assoc]

theorem isSome_mediaSegmentExtension?_iff {value : String} :
    (mediaSegmentExtension? value).isSome = true ↔
      ".ts".toList <:+ value.toList ∨ ".m4s".toList <:+ value.toList := by
  unfold mediaSegmentExtension?
  rw [← List.isSuffixOf_iff_suffix, ← List.isSuffixOf_iff_suffix]
  split_ifs with hts hm4s
  · exact iff_of_true rfl (Or.inl hts)
  · exact iff_of_true rfl (Or.inr hm4s)
  · exact iff_of_false Bool.false_ne_true (not_or.mpr ⟨hts, hm4s⟩)

theorem toNat_lt_of_safe {c : Char} (h : isSafePathCharacter c = true) : c.toNat < 128 := by
  unfold isSafePathCharacter at h
  simp only [Bool.or_eq_true, decide_eq_true_eq] at h
  rcases h with (((h | rfl) | rfl) | rfl) | rfl
  · change ((decide ('A'.val ≤ c.val ∧ c.val ≤ 'Z'.val) ||
      decide ('a'.val ≤ c.val) && decide (c.val ≤ 'z'.val)) ||
      decide ('0'.val ≤ c.val) && decide (c.val ≤ '9'.val)) = true at h
    simp only [Bool.or_eq_true, Bool.and_eq_true, decide_eq_true_eq, UInt32.le_iff_toNat_le] at h
    have hc : c.toNat = c.val.toNat := rfl
    have hupper : 'Z'.val.toNat = 90 := rfl
    have hlower : 'z'.val.toNat = 122 := rfl
    have hdigit : '9'.val.toNat = 57 := rfl
    omega
  all_goals decide

/-- Safe characters are single UTF-16 code units. -/
theorem utf16Length_of_safe {value : String}
    (h : ∀ c ∈ value.toList, isSafePathCharacter c = true) :
    utf16Length value = value.toList.length := by
  have hunits : ∀ c ∈ value.toList, (if c.toNat < 0x10000 then 1 else 2) = 1 := by
    intro c hc
    have hlt := toNat_lt_of_safe (h c hc)
    exact if_pos (by omega)
  unfold utf16Length
  rw [List.map_congr_left hunits, List.map_const', List.sum_replicate, nsmul_eq_mul,
    Nat.cast_id, mul_one]

end OpenStreamGrid
