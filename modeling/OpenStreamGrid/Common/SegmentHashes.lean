import Mathlib.Data.LawfulXor.Basic
import Mathlib.Data.List.Forall2
import OpenStreamGrid.Common.PeerAddress
import OpenStreamGrid.Tracker.ConnectionSlots

/-!
# Published hashes

A segment's SHA-256 is published as hexadecimal text in a file beside it. The
browser compares texts, the Node peer compares the bytes they stand for; each has
its own parser of the file. The hash function is a parameter.
-/

namespace OpenStreamGrid

/-! ## Hexadecimal texts -/

/-- `byte.toString(16).padStart(2, "0")` -/
def hexByte (byte : UInt8) : List Char := (Nat.toDigits 16 byte.toNat).leftpad 2 '0'

def hexText (bytes : List UInt8) : List Char := bytes.flatMap hexByte

/-- `Buffer.from(text, "hex")`, which ends before the first pair that is no byte. -/
def hexBytes : List Char → List UInt8
  | high :: low :: rest =>
      match hexDigitValue high, hexDigitValue low with
      | some high, some low => UInt8.ofNat (16 * high + low) :: hexBytes rest
      | _, _ => []
  | _ => []

theorem hexByte_eq (byte : UInt8) :
    hexByte byte = [Nat.digitChar (byte.toNat / 16), Nat.digitChar (byte.toNat % 16)] := by
  have hlt : byte.toNat < 256 := byte.toNat_lt
  unfold hexByte
  rw [Nat.toDigits_eq_if (by decide)]
  split_ifs with hsmall
  · have hdiv : byte.toNat / 16 = 0 := by omega
    have hmod : byte.toNat % 16 = byte.toNat := by omega
    rw [hdiv, hmod]
    rfl
  · have hdiv : byte.toNat / 16 < 16 := by omega
    rw [Nat.toDigits_eq_if (by decide), if_pos hdiv]
    rfl

/-- Bytes are read back from their text. -/
theorem hexBytes_hexText (bytes : List UInt8) : hexBytes (hexText bytes) = bytes := by
  induction bytes with
  | nil => rfl
  | cons byte bytes ih =>
      have hlt : byte.toNat < 256 := byte.toNat_lt
      have hhigh : hexDigitValue (Nat.digitChar (byte.toNat / 16)) = some (byte.toNat / 16) :=
        hexDigitValue_digitChar (by omega)
      have hlow : hexDigitValue (Nat.digitChar (byte.toNat % 16)) = some (byte.toNat % 16) :=
        hexDigitValue_digitChar (by omega)
      have hcons : hexText (byte :: bytes) = Nat.digitChar (byte.toNat / 16)
          :: Nat.digitChar (byte.toNat % 16) :: hexText bytes := by
        show hexByte byte ++ hexText bytes = _
        rw [hexByte_eq]
        rfl
      rw [hcons]
      show (match hexDigitValue _, hexDigitValue _ with | some _, some _ => _ | _, _ => _) = _
      rw [hhigh, hlow]
      show UInt8.ofNat (16 * (byte.toNat / 16) + byte.toNat % 16) :: hexBytes (hexText bytes) = _
      rw [ih, Nat.div_add_mod, UInt8.ofNat_toNat]

def isHexDigit (c : Char) : Bool := (hexDigitValue c).isSome

/-- The 64 digits a published hash starts with. -/
def leadingHash? (content : List Char) : Option (List Char) :=
  let digits := content.take 64
  if digits.length = 64 ∧ digits.all isHexDigit then some (digits.map Char.toLower) else none

/-! ## The browser's check -/

namespace Sdk

/-- `content.trim().match(/^[a-fA-F0-9]{64}/u)`, in lower case -/
def parseSha256 (content : List Char) : Option (List Char) := leadingHash? (trim content)

/-- Compares in a time that depends on the lengths alone. -/
def constantTimeEqual (a b : List Char) : Bool :=
  a.length = b.length &&
    (a.zip b).foldl (fun result pair => result ||| (pair.1.toNat ^^^ pair.2.toNat)) 0 = 0

/-- `verifySegmentHash`, without the hashes it returns beside -/
def verifySegmentHash (sha256 : List UInt8 → List UInt8) (data : List UInt8)
    (expectedHash : List Char) : Bool :=
  constantTimeEqual (hexText (sha256 data)) expectedHash

theorem foldl_or_eq_zero_iff (pairs : List (Char × Char)) (result : ℕ) :
    pairs.foldl (fun result pair => result ||| (pair.1.toNat ^^^ pair.2.toNat)) result = 0 ↔
      result = 0 ∧ ∀ pair ∈ pairs, pair.1 = pair.2 := by
  induction pairs generalizing result with
  | nil => simp
  | cons pair pairs ih =>
      have hpair : pair.1.toNat ^^^ pair.2.toNat = 0 ↔ pair.1 = pair.2 := by
        rw [xor_eq_zero_iff, Char.toNat_inj]
      rw [List.foldl_cons, ih, Nat.or_eq_zero_iff, hpair, List.forall_mem_cons, and_assoc]

theorem constantTimeEqual_iff {a b : List Char} : constantTimeEqual a b = true ↔ a = b := by
  unfold constantTimeEqual
  rw [Bool.and_eq_true_iff, decide_eq_true_eq, decide_eq_true_eq, foldl_or_eq_zero_iff]
  have hforall : (∀ pair ∈ a.zip b, pair.1 = pair.2) ↔ ∀ {x y}, (x, y) ∈ a.zip b → x = y :=
    ⟨fun h x y hmem => h (x, y) hmem, fun h pair hmem => h hmem⟩
  rw [hforall, ← List.forall₂_eq_eq_eq, List.forall₂_iff_zip]
  exact ⟨fun h => ⟨h.1, h.2.2⟩, fun h => ⟨h.1, rfl, h.2⟩⟩

/-- Only the bytes with the published hash pass. -/
theorem sha256_of_verifySegmentHash {sha256 : List UInt8 → List UInt8} {data : List UInt8}
    {expectedHash : List Char} (h : verifySegmentHash sha256 data expectedHash = true) :
    sha256 data = hexBytes expectedHash := by
  rw [← constantTimeEqual_iff.mp h, hexBytes_hexText]

end Sdk

/-! ## The Node peer's check -/

namespace Node

def isLineTerminator (c : Char) : Bool := c.toNat ∈ [0xA, 0xD, 0x2028, 0x2029]

/-- The pattern `(?:\s+.+)?$`. -/
def isHashSuffix (rest : List Char) : Bool :=
  rest.isEmpty || (List.range rest.length).any fun spaces =>
    0 < spaces && (rest.take spaces).all isWhiteSpace &&
      (rest.drop spaces).all fun c => !isLineTerminator c

/-- `content.trim().match(/^([a-fA-F0-9]{64})(?:\s+.+)?$/)`, in lower case -/
def parseSha256 (content : List Char) : Option (List Char) :=
  let content := trim content
  if isHashSuffix (content.drop 64) then leadingHash? content else none

def verifySegmentHash (sha256 : List UInt8 → List UInt8) (data : List UInt8)
    (expectedHash : List Char) : Bool :=
  hexBytes (hexText (sha256 data)) = hexBytes expectedHash

theorem sha256_of_verifySegmentHash {sha256 : List UInt8 → List UInt8} {data : List UInt8}
    {expectedHash : List Char} (h : verifySegmentHash sha256 data expectedHash = true) :
    sha256 data = hexBytes expectedHash := by
  rw [← of_decide_eq_true h, hexBytes_hexText]

end Node

end OpenStreamGrid
