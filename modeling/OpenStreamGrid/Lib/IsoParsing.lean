import Mathlib.Tactic.LinearCombination
import Mathlib.Tactic.Positivity
import OpenStreamGrid.Lib.IsoTime

/-!
# Reading ISO texts of times

`Date.parse` on texts in the form that `toISOString` writes within the years of
four digits. ECMAScript leaves other texts to the implementation, which is a
parameter.
-/

namespace OpenStreamGrid

namespace IsoTime

/-! ## Fields -/

/-- A number of `width` digits and the separator behind it; what follows is read next. -/
def readField (width : ℕ) (separator : Char) (text : List Char) : Option (ℕ × List Char) :=
  match text.drop width with
  | [] => none
  | c :: rest =>
      if c = separator ∧ (text.take width).all Char.isDigit then
        some (Nat.ofDigitChars 10 (text.take width) 0, rest)
      else none

theorem length_padded (width : ℕ) : ∀ n, (padded width n).length = width := by
  induction width with
  | zero => exact fun n => rfl
  | succ width ih => exact fun n => congrArg (· + 1) (ih _)

theorem isDigit_padded {width : ℕ} : ∀ {n : ℕ}, n < 10 ^ width →
    ∀ c ∈ padded width n, c.isDigit = true := by
  induction width with
  | zero => intro n _ c hc; simp [padded] at hc
  | succ width ih =>
      intro n hn c hc
      have hfirst : n / 10 ^ width < 10 := Nat.div_lt_of_lt_mul (by rwa [← pow_succ])
      rcases List.mem_cons.mp hc with rfl | hc
      · revert hfirst
        generalize n / 10 ^ width = digit
        revert digit
        decide
      · exact ih (Nat.mod_lt _ (by positivity)) c hc

theorem ofDigitChars_padded {width : ℕ} : ∀ {n : ℕ} (read : ℕ), n < 10 ^ width →
    Nat.ofDigitChars 10 (padded width n) read = read * 10 ^ width + n := by
  induction width with
  | zero =>
      intro n read hn
      simp only [pow_zero, Nat.lt_one_iff] at hn
      simp [padded, hn]
  | succ width ih =>
      intro n read hn
      have hfirst : n / 10 ^ width < 10 := Nat.div_lt_of_lt_mul (by rwa [← pow_succ])
      have hsplit := Nat.div_add_mod n (10 ^ width)
      rw [padded, Nat.ofDigitChars_cons_digitChar_of_lt_ten hfirst,
        ih _ (Nat.mod_lt _ (by positivity)), pow_succ]
      linear_combination hsplit

/-- A number written in a field is read back. -/
theorem readField_padded {width n : ℕ} (hn : n < 10 ^ width) (separator : Char)
    (rest : List Char) :
    readField width separator (padded width n ++ separator :: rest) = some (n, rest) := by
  unfold readField
  rw [List.drop_left' (length_padded width n), List.take_left' (length_padded width n)]
  dsimp only
  rw [if_pos ⟨rfl, List.all_eq_true.mpr (isDigit_padded hn)⟩, ofDigitChars_padded 0 hn, zero_mul,
    zero_add]

/-! ## Times -/

/-- The number of a day, from its year, the month counted from zero, and the day of the month. -/
def dayFromDate (year : ℤ) (month date : ℕ) : ℤ :=
  dayFromYear year + (0 :: laterMonthStarts (inLeapYear year)).getD month 0 + date - 1

/-- `YYYY-MM-DDTHH:mm:ss.sssZ` -/
def parse (text : String) : Option ℤ := do
  let (year, text) ← readField 4 '-' text.toList
  let (month, text) ← readField 2 '-' text
  let (date, text) ← readField 2 'T' text
  let (hour, text) ← readField 2 ':' text
  let (minute, text) ← readField 2 ':' text
  let (second, text) ← readField 2 '.' text
  let (ms, text) ← readField 3 'Z' text
  if text = [] ∧ 1 ≤ month ∧ month ≤ 12 ∧ 1 ≤ date ∧ date ≤ 31 ∧ hour < 24 ∧ minute < 60 ∧
      second < 60 then
    some (dayFromDate year (month - 1) date * 86400000 + hour * 3600000 + minute * 60000 +
      second * 1000 + ms)
  else none

/-- `Date.parse`, where `other` reads the texts in other forms. -/
def dateParse (other : String → Option ℤ) (text : String) : Option ℤ :=
  (parse text).orElse fun _ => other text

/-- The date of a day of the year lies in a month of at most 31 days. -/
theorem dateFromDay_mem {leap day : ℤ} (hleap : leap = 0 ∨ leap = 1) (hday : 0 ≤ day)
    (hend : day < 365 + leap) : 1 ≤ dateFromDay leap day ∧ dateFromDay leap day ≤ 31 := by
  have hall : ∀ leap < 2, ∀ day < 365 + leap,
      1 ≤ dateFromDay (leap : ℕ) (day : ℕ) ∧ dateFromDay (leap : ℕ) (day : ℕ) ≤ 31 := by
    decide +kernel
  lift day to ℕ using hday
  rcases hleap with rfl | rfl
  · exact hall 0 (by decide) day (by exact_mod_cast hend)
  · exact hall 1 (by decide) day (by exact_mod_cast hend)

/-- The date of a day stands for that day. -/
theorem dayFromDate_dateFromDay {year day : ℤ}
    (hdate : 1 ≤ dateFromDay (inLeapYear year) day) :
    dayFromDate year (monthFromDay (inLeapYear year) day)
      (dateFromDay (inLeapYear year) day).toNat = dayFromYear year + day := by
  unfold dayFromDate
  rw [Int.toNat_of_nonneg (by omega)]
  unfold dateFromDay
  omega

/-- **The time that a text was written for is read from it.** -/
theorem parse_toISOString {t : ℤ} (ht : InFourDigitYears t) : parse (toISOString t) = some t := by
  have hyear := yearOf_nonneg_iff.mpr ht.1
  have hyear' := yearOf_le_iff.mpr ht.2
  have hspec := yearFromDay_spec (t / 86400000)
  change dayFromYear (yearOf t) ≤ _ ∧ _ < dayFromYear (yearOf t + 1) at hspec
  have hlength := inLeapYear_mem (yearOf t)
  have hdate : 1 ≤ dateFromDay (inLeapYear (yearOf t)) (t / 86400000 - dayFromYear (yearOf t)) ∧
      dateFromDay (inLeapYear (yearOf t)) (t / 86400000 - dayFromYear (yearOf t)) ≤ 31 := by
    apply dateFromDay_mem hlength
    · omega
    · unfold inLeapYear
      omega
  have hmonth := monthFromDay_lt (inLeapYear (yearOf t)) (t / 86400000 - dayFromYear (yearOf t))
  have hday := dayFromDate_dateFromDay hdate.1
  have htext : (toISOString t).toList = padded 4 (yearOf t).toNat ++ '-' ::
      dateText (inLeapYear (yearOf t)) (t / 86400000 - dayFromYear (yearOf t))
        (timeText (t % 86400000).toNat) := by
    rw [← yearText_of_inFourDigitYears ht]
    exact String.toList_ofList
  unfold parse
  rw [htext, dateText, timeText]
  simp (disch := omega) only [readField_padded, Option.bind_eq_bind, Option.bind_some,
    Nat.add_sub_cancel]
  rw [if_pos ⟨trivial, by omega⟩, Int.toNat_of_nonneg hyear, hday]
  congr 1
  omega

end IsoTime

end OpenStreamGrid
