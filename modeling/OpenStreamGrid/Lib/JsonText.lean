import Mathlib.Algebra.BigOperators.Group.List.Basic
import Mathlib.Algebra.GroupWithZero.Nat
import Mathlib.Data.List.Basic

/-!
# JSON texts of strings and string arrays

`JSON.stringify` on strings and on arrays of strings, and the size in bytes of
its UTF-8 encoding as a sum over the characters and elements.
-/

namespace OpenStreamGrid

/-- A lowercase hexadecimal digit. -/
def hexDigit (n : ℕ) : Char := Nat.digitChar (n % 16)

/-- A character inside a JSON string. -/
def jsonChar (c : Char) : String :=
  if c.toNat = 0x22 then "\\\""
  else if c.toNat = 0x5C then "\\\\"
  else if c.toNat = 0x08 then "\\b"
  else if c.toNat = 0x0C then "\\f"
  else if c.toNat = 0x0A then "\\n"
  else if c.toNat = 0x0D then "\\r"
  else if c.toNat = 0x09 then "\\t"
  else if c.toNat < 0x20 then
    "\\u00" ++ String.singleton (hexDigit (c.toNat / 16)) ++ String.singleton (hexDigit c.toNat)
  else String.singleton c

/-- Texts one after another. -/
def concat : List String → String
  | [] => ""
  | s :: rest => s ++ concat rest

def jsonString (s : String) : String := "\"" ++ concat (s.toList.map jsonChar) ++ "\""

/-- Texts with commas between them. -/
def commaSeparated : List String → String
  | [] => ""
  | s :: rest => s ++ concat (rest.map ("," ++ ·))

def jsonStringArray (xs : List String) : String :=
  "[" ++ commaSeparated (xs.map jsonString) ++ "]"

/-! ## Sizes -/

/-- Bytes of a JSON string's text. -/
def jsonStringBytes (s : String) : ℕ := 2 + (s.toList.map fun c => (jsonChar c).utf8ByteSize).sum

theorem utf8ByteSize_concat : ∀ xs : List String,
    (concat xs).utf8ByteSize = (xs.map String.utf8ByteSize).sum
  | [] => rfl
  | s :: rest => by
      rw [concat, String.utf8ByteSize_append, utf8ByteSize_concat rest, List.map_cons,
        List.sum_cons]

theorem utf8ByteSize_jsonString (s : String) :
    (jsonString s).utf8ByteSize = jsonStringBytes s := by
  have hquote : ("\"" : String).utf8ByteSize = 1 := by decide
  rw [jsonString, String.utf8ByteSize_append, String.utf8ByteSize_append, utf8ByteSize_concat,
    List.map_map, hquote, jsonStringBytes]
  have : String.utf8ByteSize ∘ jsonChar = fun c => (jsonChar c).utf8ByteSize := rfl
  rw [this]
  omega

theorem utf8ByteSize_commaSeparated : ∀ xs : List String,
    (commaSeparated xs).utf8ByteSize = (xs.map String.utf8ByteSize).sum + (xs.length - 1)
  | [] => rfl
  | s :: rest => by
      have hcomma : ("," : String).utf8ByteSize = 1 := by decide
      have hrest : ((rest.map ("," ++ ·)).map String.utf8ByteSize).sum
          = (rest.map String.utf8ByteSize).sum + rest.length := by
        induction rest with
        | nil => rfl
        | cons t rest ih =>
            simp only [List.map_cons, List.sum_cons, ih, String.utf8ByteSize_append, hcomma,
              List.length_cons]
            omega
      rw [commaSeparated, String.utf8ByteSize_append, utf8ByteSize_concat, hrest, List.map_cons,
        List.sum_cons, List.length_cons]
      omega

theorem utf8ByteSize_jsonStringArray (xs : List String) :
    (jsonStringArray xs).utf8ByteSize = 2 + (xs.map jsonStringBytes).sum + (xs.length - 1) := by
  have hopen : ("[" : String).utf8ByteSize = 1 := by decide
  have hclose : ("]" : String).utf8ByteSize = 1 := by decide
  have hmap : (xs.map jsonString).map String.utf8ByteSize = xs.map jsonStringBytes := by
    rw [List.map_map]
    exact List.map_congr_left fun s _ => utf8ByteSize_jsonString s
  rw [jsonStringArray, String.utf8ByteSize_append, String.utf8ByteSize_append, hopen, hclose,
    utf8ByteSize_commaSeparated, hmap, List.length_map]
  omega

end OpenStreamGrid
