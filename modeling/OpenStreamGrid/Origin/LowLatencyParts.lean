import Mathlib.Data.List.DropRight
import OpenStreamGrid.Common.SegmentHashes
import OpenStreamGrid.Lib.Slices

/-!
# Low-latency parts

The origin lists the newest segments as parts and serves each part as a slice of
the finished segment, cut at the boundaries of transport stream packets. The
numbers stay below `2 ^ 53`, where the division and `Math.floor` of the source are
those of the natural numbers. A stream's directory is what its names stand for.
-/

namespace OpenStreamGrid

namespace Origin

def TS_PACKET_BYTES : ℕ := 188

/-! ## Ranges -/

/-- The bytes from `start` on, before `stop`. -/
structure ByteRange where
  start : ℕ
  stop : ℕ
deriving DecidableEq

/-- Where a part starts and the one before it ends. -/
def partBoundary (size count part : ℕ) : ℕ :=
  if count ≤ part then size else size / TS_PACKET_BYTES * part / count * TS_PACKET_BYTES

/-- The last part takes the remainder. -/
def partRange (size index count : ℕ) : ByteRange :=
  ⟨partBoundary size count index, partBoundary size count (index + 1)⟩

theorem partBoundary_zero (size : ℕ) {count : ℕ} (hcount : 0 < count) :
    partBoundary size count 0 = 0 := by
  unfold partBoundary
  rw [if_neg (Nat.not_le.mpr hcount), mul_zero, Nat.zero_div, zero_mul]

theorem partBoundary_count (size count : ℕ) : partBoundary size count count = size :=
  if_pos le_rfl

/-- Boundaries lie between packets, except for the end of the segment. -/
theorem dvd_partBoundary {size count part : ℕ} (hpart : part < count) :
    TS_PACKET_BYTES ∣ partBoundary size count part := by
  unfold partBoundary
  rw [if_neg (Nat.not_le.mpr hpart)]
  exact dvd_mul_left _ _

/-- The packets before a boundary are at most those of the segment. -/
theorem partBoundary_le (size count part : ℕ) : partBoundary size count part ≤ size := by
  unfold partBoundary
  split_ifs with hpast
  · exact le_rfl
  · have hpackets : size / TS_PACKET_BYTES * part / count ≤ size / TS_PACKET_BYTES := by
      apply Nat.div_le_of_le_mul
      rw [mul_comm count]
      exact Nat.mul_le_mul_left _ (Nat.not_le.mp hpast).le
    calc size / TS_PACKET_BYTES * part / count * TS_PACKET_BYTES
        ≤ size / TS_PACKET_BYTES * TS_PACKET_BYTES := Nat.mul_le_mul_right _ hpackets
      _ ≤ size := Nat.div_mul_le_self _ _

theorem partBoundary_le_succ (size count part : ℕ) :
    partBoundary size count part ≤ partBoundary size count (part + 1) := by
  by_cases hnext : count ≤ part + 1
  · have hend : partBoundary size count (part + 1) = size := if_pos hnext
    rw [hend]
    exact partBoundary_le size count part
  · unfold partBoundary
    rw [if_neg hnext, if_neg fun hpast => hnext (Nat.le_succ_of_le hpast)]
    apply Nat.mul_le_mul_right
    apply Nat.div_le_div_right
    exact Nat.mul_le_mul_left _ (Nat.le_succ part)

/-- The ranges of the parts cover a segment in order, without gap or overlap, from packet to
packet. -/
structure Tiles (size count : ℕ) : Prop where
  first : (partRange size 0 count).start = 0
  last : (partRange size (count - 1) count).stop = size
  ordered : ∀ index < count, (partRange size index count).start ≤ (partRange size index count).stop
  adjacent : ∀ index, (partRange size index count).stop = (partRange size (index + 1) count).start
  aligned : ∀ index < count, TS_PACKET_BYTES ∣ (partRange size index count).start

theorem tiles (size : ℕ) {count : ℕ} (hcount : 0 < count) : Tiles size count where
  first := partBoundary_zero size hcount
  last := by
    show partBoundary size count (count - 1 + 1) = size
    rw [Nat.sub_add_cancel hcount, partBoundary_count]
  ordered index _ := partBoundary_le_succ size count index
  adjacent _ := rfl
  aligned _ hindex := dvd_partBoundary hindex

/-- The bytes of a part. -/
def partBytes (segment : List UInt8) (index count : ℕ) : List UInt8 :=
  (segment.drop (partRange segment.length index count).start).take
    ((partRange segment.length index count).stop - (partRange segment.length index count).start)

theorem flatten_partBytes (segment : List UInt8) {count : ℕ} (hcount : 0 < count) :
    ((List.range count).map fun index => partBytes segment index count).flatten = segment := by
  have hcuts := flatten_cuts segment (partBoundary_zero segment.length hcount)
    (n := count) fun index _ => partBoundary_le_succ segment.length count index
  rw [partBoundary_count, List.take_length] at hcuts
  exact hcuts

theorem length_partBytes (segment : List UInt8) (index count : ℕ) :
    (partBytes segment index count).length = (partRange segment.length index count).stop -
      (partRange segment.length index count).start := by
  have hle : (partRange segment.length index count).stop ≤ segment.length :=
    partBoundary_le segment.length count (index + 1)
  unfold partBytes
  rw [List.length_take, List.length_drop]
  omega

/-- A part without packets is served as nothing. -/
theorem partBytes_eq_nil {segment : List UInt8} {index count : ℕ}
    (h : (partRange segment.length index count).stop ≤
      (partRange segment.length index count).start) : partBytes segment index count = [] := by
  apply List.eq_nil_of_length_eq_zero
  rw [length_partBytes]
  omega

/-! ## Names -/

structure PartName where
  segmentName : List Char
  index : ℕ
deriving DecidableEq

/-- `/^(.+)\.part(\d+)\.ts$/` -/
def parsePartName (fileName : List Char) : Option PartName :=
  (fileName.dropSuffix? ".ts".toList).bind fun stem =>
    ((stem.rdropWhile Char.isDigit).dropSuffix? ".part".toList).bind fun base =>
      if base = [] ∨ base.any Node.isLineTerminator ∨ stem.rtakeWhile Char.isDigit = [] then none
      else some ⟨base ++ ".ts".toList, Nat.ofDigitChars 10 (stem.rtakeWhile Char.isDigit) 0⟩

/-- The name the playlist has for a part of the segment `<base>.ts`. -/
def partName (base : List Char) (part : ℕ) : List Char :=
  base ++ ".part".toList ++ Nat.toDigits 10 part ++ ".ts".toList

theorem dropSuffix?_append (xs ys : List Char) : (xs ++ ys).dropSuffix? ys = some xs :=
  List.dropSuffix?_eq_some_iff.mpr ⟨ys, rfl, BEq.rfl⟩

/-- A part is found under the name the playlist has for it. -/
theorem parsePartName_partName {base : List Char} (hbase : base ≠ [])
    (hline : base.any Node.isLineTerminator = false) (part : ℕ) :
    parsePartName (partName base part) = some ⟨base ++ ".ts".toList, part⟩ := by
  have hdigits : ∀ c ∈ (Nat.toDigits 10 part).reverse, c.isDigit = true := fun c hc =>
    Nat.isDigit_of_mem_toDigits (by decide) (by decide) (List.mem_reverse.mp hc)
  have hrest : (base ++ ".part".toList).reverse = 't' :: (base ++ ".par".toList).reverse := by
    simp
  have hdrop : (base ++ ".part".toList ++ Nat.toDigits 10 part).rdropWhile Char.isDigit =
      base ++ ".part".toList := by
    unfold List.rdropWhile
    rw [List.reverse_append, List.dropWhile_append_of_pos hdigits, hrest,
      List.dropWhile_cons_of_neg (by decide), ← hrest, List.reverse_reverse]
  have htake : (base ++ ".part".toList ++ Nat.toDigits 10 part).rtakeWhile Char.isDigit =
      Nat.toDigits 10 part := by
    unfold List.rtakeWhile
    rw [List.reverse_append, List.takeWhile_append_of_pos hdigits, hrest,
      List.takeWhile_cons_of_neg (by decide), List.append_nil, List.reverse_reverse]
  have hsome : ¬ (base = [] ∨ base.any Node.isLineTerminator = true ∨
      Nat.toDigits 10 part = []) := by
    rw [hline]
    simp [hbase]
  unfold parsePartName partName
  rw [dropSuffix?_append, Option.bind_some, hdrop, dropSuffix?_append, Option.bind_some, htake,
    if_neg hsome, Nat.ofDigitChars_ten_toDigits]

/-! ## Serving -/

inductive HttpMethod where
  | get
  | head
deriving DecidableEq

inductive PartResponse where
  | notFound
  | part (contentLength : ℕ) (body : List UInt8)

/-- One part as a slice of its finished segment. -/
def sendPart (method : HttpMethod) (segment : Option (List UInt8)) (index count : ℕ) :
    PartResponse :=
  match segment with
  | none => .notFound
  | some bytes =>
      let range := partRange bytes.length index count
      .part (range.stop - range.start)
        (if method = .head ∨ range.stop ≤ range.start then []
          else (bytes.drop range.start).take (range.stop - range.start))

/-- What `createOriginHandler` answers as a part; none if another branch answers. The name has passed
the checks on paths. -/
def handlePart (directory : List Char → Option (List UInt8)) (partsPerSegment : ℕ)
    (method : HttpMethod) (assetName : List Char) : Option PartResponse :=
  if partsPerSegment = 0 ∨ (directory assetName).isSome then none
  else
    (parsePartName assetName).bind fun part =>
      if part.index < partsPerSegment then
        some (sendPart method (directory part.segmentName) part.index partsPerSegment)
      else none

/-- The response has the length it says. -/
theorem sendPart_get (segment : List UInt8) (index count : ℕ) :
    sendPart .get (some segment) index count =
      .part (partBytes segment index count).length (partBytes segment index count) := by
  rw [length_partBytes]
  unfold sendPart
  dsimp only
  by_cases hempty : (partRange segment.length index count).stop ≤
      (partRange segment.length index count).start
  · rw [if_pos (Or.inr hempty), partBytes_eq_nil hempty]
  · rw [if_neg]
    · rfl
    · rintro (hhead | hempty')
      · cases hhead
      · exact hempty hempty'

/-- A part is served under its name. -/
theorem handlePart_partName {directory : List Char → Option (List UInt8)} {count index : ℕ}
    {base : List Char} {segment : List UInt8} (hbase : base ≠ [])
    (hline : base.any Node.isLineTerminator = false)
    (hsegment : directory (base ++ ".ts".toList) = some segment)
    (hfile : directory (partName base index) = none) (hindex : index < count) :
    handlePart directory count .get (partName base index) =
      some (.part (partBytes segment index count).length (partBytes segment index count)) := by
  unfold handlePart
  rw [hfile, if_neg, parsePartName_partName hbase hline, Option.bind_some]
  · dsimp only
    rw [if_pos hindex, hsegment, sendPart_get]
  · rintro (hzero | hsome)
    · omega
    · cases hsome

end Origin

end OpenStreamGrid
