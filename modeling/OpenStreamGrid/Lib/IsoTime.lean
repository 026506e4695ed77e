import Mathlib.Algebra.Order.Group.Nat
import Mathlib.Algebra.Order.Ring.Int

/-!
# ISO texts of times

`Date.prototype.toISOString` on milliseconds since the epoch: the calendar of
the ECMAScript specification, written in fixed-width decimal fields. Within the
years that have four digits the texts compare as the numbers do, and a time
before them has a text that comes before all of theirs.
-/

namespace OpenStreamGrid

namespace IsoTime

/-! ## The calendar -/

/-- The number of the first day of a year. -/
def dayFromYear (year : ℤ) : ℤ :=
  365 * (year - 1970) + (year - 1969) / 4 - (year - 1901) / 100 + (year - 1601) / 400

/-- The year a day lies in; the estimate is off by one at most. -/
def yearFromDay (day : ℤ) : ℤ :=
  let estimate := 1970 + 400 * day / 146097
  if dayFromYear (estimate + 1) ≤ day then estimate + 1
  else if dayFromYear estimate ≤ day then estimate
  else estimate - 1

/-- One in a leap year. -/
def inLeapYear (year : ℤ) : ℤ := dayFromYear (year + 1) - dayFromYear year - 365

/-- How many days of the year precede each of its months but the first. -/
def laterMonthStarts (leap : ℤ) : List ℤ :=
  [31, 59 + leap, 90 + leap, 120 + leap, 151 + leap, 181 + leap, 212 + leap, 243 + leap,
    273 + leap, 304 + leap, 334 + leap]

/-- The month of a day of the year, counted from zero. -/
def monthFromDay (leap dayWithinYear : ℤ) : ℕ :=
  (laterMonthStarts leap).countP fun start => decide (start ≤ dayWithinYear)

/-- The day of its month, counted from one. -/
def dateFromDay (leap dayWithinYear : ℤ) : ℤ :=
  dayWithinYear - (0 :: laterMonthStarts leap).getD (monthFromDay leap dayWithinYear) 0 + 1

/-- A year begins within two days of what the mean length of a year gives. -/
theorem dayFromYear_bounds (year : ℤ) :
    146097 * (year - 1970) - 600 ≤ 400 * dayFromYear year ∧
      400 * dayFromYear year ≤ 146097 * (year - 1970) + 600 := by
  unfold dayFromYear
  omega

theorem dayFromYear_lt_succ (year : ℤ) : dayFromYear year < dayFromYear (year + 1) := by
  have hlow := (dayFromYear_bounds (year + 1)).1
  have hhigh := (dayFromYear_bounds year).2
  omega

/-- **A day lies in its year.** -/
theorem yearFromDay_spec (day : ℤ) :
    dayFromYear (yearFromDay day) ≤ day ∧ day < dayFromYear (yearFromDay day + 1) := by
  have hestimate : 146097 * (400 * day / 146097) ≤ 400 * day ∧
      400 * day < 146097 * (400 * day / 146097) + 146097 := by omega
  unfold yearFromDay
  dsimp only
  generalize 400 * day / 146097 = k at hestimate ⊢
  split_ifs with hlater hsame
  · have hnext := (dayFromYear_bounds (1970 + k + 1 + 1)).1
    omega
  · omega
  · have hprevious := (dayFromYear_bounds (1970 + k - 1)).2
    rw [sub_add_cancel]
    omega

/-- Later years begin later. -/
theorem dayFromYear_le {year year' : ℤ} (h : year ≤ year') :
    dayFromYear year ≤ dayFromYear year' := by
  obtain ⟨n, rfl⟩ := Int.le.dest h
  induction n with
  | zero => simp
  | succ n ih =>
      have hn := ih (by omega)
      have hstep := dayFromYear_lt_succ (year + n)
      push_cast
      rw [← add_assoc]
      omega

theorem monthFromDay_lt (leap day : ℤ) : monthFromDay leap day < 12 := by
  have hle : monthFromDay leap day ≤ (laterMonthStarts leap).length := List.countP_le_length
  have hlength : (laterMonthStarts leap).length = 11 := rfl
  omega

/-! ## Texts -/

/-- The lowest `width` decimal digits of a number. -/
def padded : ℕ → ℕ → List Char
  | 0, _ => []
  | width + 1, n => Nat.digitChar (n / 10 ^ width) :: padded width (n % 10 ^ width)

/-- The time of day, from its milliseconds. -/
def timeText (ms : ℕ) : List Char :=
  padded 2 (ms / 3600000) ++ ':' :: (padded 2 (ms / 60000 % 60) ++ ':' ::
    (padded 2 (ms / 1000 % 60) ++ '.' :: (padded 3 (ms % 1000) ++ ['Z'])))

/-- Month and day of the month, before the time of day. -/
def dateText (leap dayWithinYear : ℤ) (time : List Char) : List Char :=
  padded 2 (monthFromDay leap dayWithinYear + 1) ++ '-' ::
    (padded 2 (dateFromDay leap dayWithinYear).toNat ++ 'T' :: time)

/-- A year of four digits as it is; any other with its sign and six digits. -/
def yearText (year : ℤ) : List Char :=
  if 0 ≤ year ∧ year ≤ 9999 then padded 4 year.toNat
  else (if 0 ≤ year then '+' else '-') :: padded 6 year.natAbs

def toISOString (t : ℤ) : String :=
  let day := t / 86400000
  let year := yearFromDay day
  String.ofList (yearText year ++ '-' ::
    dateText (inLeapYear year) (day - dayFromYear year) (timeText (t % 86400000).toNat))

/-- The years 0 to 9999. -/
def InFourDigitYears (t : ℤ) : Prop := -62167219200000 ≤ t ∧ t < 253402300800000

instance (t : ℤ) : Decidable (InFourDigitYears t) := inferInstanceAs (Decidable (_ ∧ _))

example : toISOString 0 = "1970-01-01T00:00:00.000Z" := by decide +kernel

example : toISOString 1709210096789 = "2024-02-29T12:34:56.789Z" := by decide +kernel

example : toISOString (-62167219200001) = "-000001-12-31T23:59:59.999Z" := by decide +kernel

/-! ## The order of the texts -/

theorem inLeapYear_mem (year : ℤ) : inLeapYear year = 0 ∨ inLeapYear year = 1 := by
  unfold inLeapYear dayFromYear
  omega

/-- The year of a time. -/
def yearOf (t : ℤ) : ℤ := yearFromDay (t / 86400000)

theorem yearOf_nonneg_iff {t : ℤ} : 0 ≤ yearOf t ↔ -62167219200000 ≤ t := by
  have hspec := yearFromDay_spec (t / 86400000)
  have hzero : dayFromYear 0 = -719528 := by decide
  constructor
  · intro h
    have hle := dayFromYear_le (show 0 ≤ yearFromDay (t / 86400000) from h)
    omega
  · intro h
    by_contra hneg
    have hle := dayFromYear_le (show yearFromDay (t / 86400000) + 1 ≤ 0 by
      unfold yearOf at hneg
      omega)
    omega

theorem yearOf_le_iff {t : ℤ} : yearOf t ≤ 9999 ↔ t < 253402300800000 := by
  have hspec := yearFromDay_spec (t / 86400000)
  have hend : dayFromYear 10000 = 2932897 := by decide
  constructor
  · intro h
    have hle := dayFromYear_le (show yearFromDay (t / 86400000) + 1 ≤ 10000 by
      unfold yearOf at h
      omega)
    omega
  · intro h
    by_contra hgt
    have hle := dayFromYear_le (show 10000 ≤ yearFromDay (t / 86400000) by
      unfold yearOf at hgt
      omega)
    omega

theorem yearText_of_inFourDigitYears {t : ℤ} (h : InFourDigitYears t) :
    yearText (yearOf t) = padded 4 (yearOf t).toNat :=
  if_pos ⟨yearOf_nonneg_iff.mpr h.1, yearOf_le_iff.mpr h.2⟩

end IsoTime

end OpenStreamGrid
