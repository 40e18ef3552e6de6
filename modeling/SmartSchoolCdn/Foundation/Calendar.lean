import Mathlib.Data.Nat.Find
import Mathlib.Data.List.Basic
import Mathlib.Tactic.IntervalCases

/-!
# Days and decimal text

The Gregorian calendar from 1970 on, and the decimal text of numbers padded with zeros.

The year of a day is the last one that begins no later, and so is its month within the year.  The
number of the day is read back from the date (`Date.toDays_ofDays`), so that different days have
different dates; padded texts of one width belong to one number (`pad_injective`).
-/

namespace Calendar

/-- A date; months are counted from 0, days from 1. -/
structure Date where
  year : ℕ
  month : ℕ
  day : ℕ
  deriving DecidableEq, Repr

/-- The days from the first day of 1970 to that of the year `k` years later. -/
def yearStart (k : ℕ) : ℕ := 365 * k + (k + 1) / 4 - (k + 69) / 100 + (k + 369) / 400

def inLeapYear (y : ℕ) : Bool := y % 4 = 0 && (y % 100 != 0 || y % 400 = 0)

/-- The days of a year before a month. -/
def monthStart (leap : Bool) (m : ℕ) : ℕ :=
  [0, 31, 59, 90, 120, 151, 181, 212, 243, 273, 304, 334].getD m 365 + if leap && 2 ≤ m then 1 else 0

/-- The years from 1970 to the one of a day. -/
def yearsTo (n : ℕ) : ℕ := Nat.findGreatest (fun k => yearStart k ≤ n) (n / 365)

def monthFromDay (leap : Bool) (d : ℕ) : ℕ := Nat.findGreatest (fun m => monthStart leap m ≤ d) 11

/-- The date of the day with this number, counted from the first day of 1970. -/
def Date.ofDays (n : ℕ) : Date :=
  let year := 1970 + yearsTo n
  let dayWithinYear := n - yearStart (yearsTo n)
  let month := monthFromDay (inLeapYear year) dayWithinYear
  { year, month, day := dayWithinYear - monthStart (inLeapYear year) month + 1 }

/-- The number of the day with this date. -/
def Date.toDays (d : Date) : ℕ :=
  yearStart (d.year - 1970) + monthStart (inLeapYear d.year) d.month + (d.day - 1)

variable {n m w : ℕ} {leap : Bool}

/-- The year of a day has begun. -/
lemma yearStart_le (n : ℕ) : yearStart (yearsTo n) ≤ n :=
  Nat.findGreatest_spec (P := fun k => yearStart k ≤ n) (Nat.zero_le _) (Nat.zero_le n)

/-- The year of a day has not ended. -/
lemma lt_yearStart (n : ℕ) : n < yearStart (yearsTo n + 1) := by
  rcases Nat.lt_or_ge (yearsTo n) (n / 365) with h | h
  · have hnext := Nat.findGreatest_is_greatest (P := fun k => yearStart k ≤ n) (n := n / 365)
      (k := yearsTo n + 1) (Nat.lt_succ_self _) h
    exact Nat.lt_of_not_le hnext
  · unfold yearStart
    omega

/-- A year is not much longer than 365 days. -/
lemma yearStart_succ_le (k : ℕ) : yearStart (k + 1) ≤ yearStart k + 367 := by
  have hbound : ∀ {a a' b b' c c' : ℕ}, a ≤ a' + 1 → b' ≤ b → c ≤ c' + 1 →
      365 * (k + 1) + a - b + c ≤ 365 * k + a' - b' + c' + 367 := by
    intro a a' b b' c c' ha hb hc
    omega
  exact hbound (by omega) (Nat.div_le_div_right (by omega)) (by omega)

/-- The month of a day has begun. -/
lemma monthStart_le (leap : Bool) (d : ℕ) : monthStart leap (monthFromDay leap d) ≤ d :=
  Nat.findGreatest_spec (P := fun m => monthStart leap m ≤ d) (Nat.zero_le 11)
    (by cases leap <;> exact Nat.zero_le d)

lemma monthFromDay_le (leap : Bool) (d : ℕ) : monthFromDay leap d ≤ 11 := Nat.findGreatest_le 11

/-- A month is not much longer than 31 days. -/
lemma lt_monthStart (leap : Bool) {d : ℕ} (h : d < 367) :
    d < monthStart leap (monthFromDay leap d) + 33 := by
  have hle := monthFromDay_le leap d
  rcases Nat.lt_or_ge (monthFromDay leap d) 11 with hlt | hge
  · have hnext := Nat.findGreatest_is_greatest (P := fun m => monthStart leap m ≤ d)
      (Nat.lt_succ_self (monthFromDay leap d)) hlt
    revert hnext
    generalize monthFromDay leap d = m at hlt
    cases leap <;> interval_cases m <;> simp [monthStart] <;> omega
  · rw [le_antisymm hle hge]
    cases leap <;> simp [monthStart] <;> omega

/-- The number of a day is read back from its date. -/
theorem Date.toDays_ofDays (n : ℕ) : (Date.ofDays n).toDays = n := by
  have hyear := yearStart_le n
  have hmonth := monthStart_le (inLeapYear (1970 + yearsTo n)) (n - yearStart (yearsTo n))
  unfold Date.toDays Date.ofDays
  dsimp only
  rw [Nat.add_sub_cancel_left]
  omega

/-- Different days have different dates. -/
theorem Date.ofDays_injective : Function.Injective Date.ofDays :=
  Function.LeftInverse.injective Date.toDays_ofDays

lemma Date.month_ofDays (n : ℕ) : (Date.ofDays n).month < 12 :=
  Nat.lt_succ_of_le (monthFromDay_le _ _)

lemma Date.day_ofDays (n : ℕ) : (Date.ofDays n).day < 100 := by
  have hnext := (lt_yearStart n).trans_le (yearStart_succ_le (yearsTo n))
  have hdays : n - yearStart (yearsTo n) < 367 := by omega
  have hmonth := lt_monthStart (inLeapYear (1970 + yearsTo n)) hdays
  unfold Date.ofDays
  dsimp only
  omega

/-- The days before the year 10000 have years of four digits. -/
lemma Date.year_ofDays (h : n < yearStart 8030) :
    1970 ≤ (Date.ofDays n).year ∧ (Date.ofDays n).year < 10000 := by
  have hyear : yearsTo n < 8030 := by
    refine Nat.lt_of_not_le fun hge => ?_
    have hstart := yearStart_le n
    unfold yearStart at h hstart
    omega
  exact ⟨Nat.le_add_right _ _, Nat.add_lt_add_left hyear 1970⟩

/-! ## Decimal text -/

/-- The decimal digits of a number, with zeros in front up to a width. -/
def pad (w n : ℕ) : List Char :=
  List.replicate (w - (Nat.toDigits 10 n).length) '0' ++ Nat.toDigits 10 n

lemma length_pad (hw : 0 < w) (h : n < 10 ^ w) : (pad w n).length = w := by
  have hle : (Nat.toDigits 10 n).length ≤ w := (Nat.length_toDigits_le_iff (by decide) hw).mpr h
  rw [pad, List.length_append, List.length_replicate]
  omega

/-- A padded text belongs to one number. -/
theorem pad_injective (w : ℕ) : Function.Injective (pad w) := by
  have hread : Function.LeftInverse (fun cs => Nat.ofDigitChars 10 cs 0) (pad w) := by
    intro n
    simp [pad, Nat.ofDigitChars_append]
  exact hread.injective

lemma isDigit_of_mem_pad {c : Char} (h : c ∈ pad w n) : c.isDigit = true := by
  rcases List.mem_append.mp h with hzero | hdigit
  · rw [List.eq_of_mem_replicate hzero]
    rfl
  · exact Nat.isDigit_of_mem_toDigits (by decide) (by decide) hdigit

end Calendar
