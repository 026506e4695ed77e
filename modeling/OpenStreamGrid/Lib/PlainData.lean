import Mathlib.Data.Rat.Cast.Order
import Mathlib.Data.List.Basic

/-!
# Untyped plain data

The values a caller may receive from code it does not trust: numbers with their
two infinities and the non-number, texts, arrays and records. Finite numbers are
read exactly. A field that is missing and one that is undefined read alike, and
so does a field of something that is no record.
-/

namespace OpenStreamGrid

/-- The largest integer up to which every integer has its own number. -/
def maxSafeInteger : ℕ := 2 ^ 53 - 1

/-- A number as another party may report it. -/
inductive JsNumber where
  | nan
  | infinity (negative : Bool)
  | finite (value : ℚ)
deriving DecidableEq

namespace JsNumber

def finite? : JsNumber → Option ℚ
  | .finite value => some value
  | _ => none

theorem finite?_eq_some {x : JsNumber} {value : ℚ} :
    x.finite? = some value ↔ x = .finite value := by
  cases x <;> simp [finite?]

/-- `Number.isFinite` -/
def isFinite (x : JsNumber) : Bool := x.finite?.isSome

@[simp] theorem isFinite_finite (value : ℚ) : (finite value).isFinite = true := rfl

/-- The integer a number is, where `Number.isInteger` holds of it. -/
def integer? : JsNumber → Option ℤ
  | .finite value => if value.den = 1 then some value.num else none
  | _ => none

theorem integer?_natCast (n : ℕ) : (finite n).integer? = some (n : ℤ) := by
  show (if (n : ℚ).den = 1 then some (n : ℚ).num else none) = some (n : ℤ)
  rw [Rat.num_natCast, if_pos (Rat.den_natCast n)]

/-- The integer a number is, where `Number.isSafeInteger` holds of it. -/
def safeInteger? : JsNumber → Option ℤ
  | .finite value =>
      if value.den = 1 ∧ value.num.natAbs ≤ maxSafeInteger then some value.num else none
  | _ => none

theorem safeInteger?_natCast {n : ℕ} (h : n ≤ maxSafeInteger) :
    (finite n).safeInteger? = some (n : ℤ) := by
  show (if (n : ℚ).den = 1 ∧ (n : ℚ).num.natAbs ≤ maxSafeInteger then some (n : ℚ).num
    else none) = some (n : ℤ)
  rw [Rat.num_natCast, Int.natAbs_natCast, if_pos ⟨Rat.den_natCast n, h⟩]

/-- Less than; nothing is less than the non-number or greater than it. -/
def lt : JsNumber → JsNumber → Bool
  | .nan, _ | _, .nan => false
  | .finite x, .finite y => x < y
  | .infinity negative, .finite _ => negative
  | .finite _, .infinity negative => !negative
  | .infinity negative, .infinity negative' => negative && !negative'

/-- Multiplication; zero times an infinity is no number. -/
def mul : JsNumber → JsNumber → JsNumber
  | .nan, _ | _, .nan => .nan
  | .finite x, .finite y => .finite (x * y)
  | .infinity negative, .finite x | .finite x, .infinity negative =>
      if x = 0 then .nan else .infinity (xor negative (decide (x < 0)))
  | .infinity negative, .infinity negative' => .infinity (xor negative negative')

end JsNumber

inductive JsValue where
  | undefined
  | null
  | boolean (value : Bool)
  | number (value : JsNumber)
  | string (value : String)
  | array (elements : List JsValue)
  | record (fields : List (String × JsValue))

namespace JsValue

/-- A field of a record. -/
def get : JsValue → String → JsValue
  | .record fields, name => ((fields.find? (·.1 = name)).map Prod.snd).getD .undefined
  | _, _ => .undefined

def isUndefined : JsValue → Bool
  | .undefined => true
  | _ => false

def string? : JsValue → Option String
  | .string value => some value
  | _ => none

def array? : JsValue → Option (List JsValue)
  | .array elements => some elements
  | _ => none

def number? : JsValue → Option JsNumber
  | .number value => some value
  | _ => none

/-- Equality with a given text. -/
def isText (text : String) (value : JsValue) : Bool := value.string? = some text

/-- A number that may be missing. -/
def ofNumber? (x : Option JsNumber) : JsValue := (x.map .number).getD .undefined

/-- The fields that are present. -/
def ofFields (fields : List (String × Option JsValue)) : JsValue :=
  .record (fields.filterMap fun field => field.2.map (field.1, ·))

theorem get_ofFields_of_not_mem {fields : List (String × Option JsValue)} {name : String}
    (h : name ∉ fields.map Prod.fst) : (ofFields fields).get name = .undefined := by
  have hnone : (fields.filterMap fun field => field.2.map (field.1, ·)).find? (·.1 = name) =
      none := by
    rw [List.find?_eq_none]
    intro entry hentry
    rcases List.mem_filterMap.mp hentry with ⟨field, hfield, hsome⟩
    rcases Option.map_eq_some_iff.mp hsome with ⟨value, -, rfl⟩
    simp only [decide_eq_true_eq]
    rintro rfl
    exact h (List.mem_map_of_mem hfield)
  show ((List.find? _ _).map Prod.snd).getD JsValue.undefined = .undefined
  rw [hnone]
  rfl

/-- A field of a record written field by field. -/
theorem get_ofFields (name : String) : ∀ {fields : List (String × Option JsValue)},
    (fields.map Prod.fst).Nodup → (ofFields fields).get name =
      ((fields.find? (·.1 = name)).bind Prod.snd).getD .undefined
  | [], _ => rfl
  | (name', value') :: rest, hnodup => by
      obtain ⟨hfresh, hrest⟩ := List.nodup_cons.mp hnodup
      by_cases hname : name' = name
      · subst hname
        have hfirst : ((name', value') :: rest).find? (·.1 = name') = some (name', value') :=
          List.find?_cons_of_pos (by simp)
        rw [hfirst]
        cases value' with
        | some value => simp [ofFields, get]
        | none => exact (get_ofFields_of_not_mem hfresh : (ofFields rest).get name' = .undefined)
      · have hlater : ((name', value') :: rest).find? (·.1 = name) = rest.find? (·.1 = name) :=
          List.find?_cons_of_neg (by simpa using hname)
        rw [hlater, ← get_ofFields name hrest]
        cases value' with
        | some value => simp [ofFields, get, hname]
        | none => rfl

/-- A value that is undefined or a finite, non-negative number. -/
def optionalNonNegativeFinite : JsValue → Bool
  | .undefined => true
  | .number (.finite value) => 0 ≤ value
  | _ => false

end JsValue

end OpenStreamGrid
