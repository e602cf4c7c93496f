import Mathlib.Algebra.Group.Action.Defs
import Mathlib.Algebra.BigOperators.Intervals
import Mathlib.Algebra.Order.BigOperators.Group.Finset
import Mathlib.Tactic.IntervalCases

/-!
# The Gregorian calendar

Days are counted from January 1 of the year 0, month by month and year by year. `daysBeforeYear_eq` is the
closed form of the years and `daysBeforeMonth_eq` the table of the months.
-/

namespace MacdTradingBot.Calendar

def IsLeap (year : ℕ) : Prop := year % 4 = 0 ∧ (year % 100 ≠ 0 ∨ year % 400 = 0)

instance (year : ℕ) : Decidable (IsLeap year) :=
  inferInstanceAs (Decidable (_ ∧ _))

def daysInYear (year : ℕ) : ℕ := if IsLeap year then 366 else 365

/-- The days of a month, from 1 for January. -/
def daysInMonth (year month : ℕ) : ℕ :=
  match month with
  | 2 => if IsLeap year then 29 else 28
  | 4 | 6 | 9 | 11 => 30
  | _ => 31

/-- The days before the year. -/
def daysBeforeYear (year : ℕ) : ℕ := ∑ y ∈ Finset.range year, daysInYear y

/-- The days of the year before the month. -/
def daysBeforeMonth (year month : ℕ) : ℕ := ∑ m ∈ Finset.Ico 1 month, daysInMonth year m

/-- The number of a day. A day past the end of its month is one of the next month. -/
def dayNumber (year month day : ℕ) : ℕ := daysBeforeYear year + daysBeforeMonth year month + (day - 1)

/-- The days before a year are those before the last one, and those in it. -/
theorem daysBeforeYear_succ (year : ℕ) :
    daysBeforeYear (year + 1) = daysBeforeYear year + daysInYear year :=
  Finset.sum_range_succ _ _

/-- Later years have more days before them. -/
theorem daysBeforeYear_mono : Monotone daysBeforeYear :=
  monotone_nat_of_le_succ fun year => by
    rw [daysBeforeYear_succ]
    exact Nat.le_add_right _ _

/-- The days before a year in closed form: a leap day every four years, but for the centuries that four
hundred does not divide. -/
theorem daysBeforeYear_eq (year : ℕ) :
    daysBeforeYear year = 365 * year + (year + 3) / 4 - (year + 99) / 100 + (year + 399) / 400 := by
  induction year with
  | zero => rfl
  | succ year ih =>
    rw [daysBeforeYear_succ, ih, daysInYear]
    by_cases hleap : IsLeap year
    · rw [if_pos hleap]
      unfold IsLeap at hleap
      omega
    · rw [if_neg hleap]
      unfold IsLeap at hleap
      omega

/-- No month is longer than 31 days. -/
theorem daysInMonth_le (year month : ℕ) : daysInMonth year month ≤ 31 := by
  unfold daysInMonth
  split <;> (try split) <;> omega

/-- A bound on the days of the year before a month. -/
theorem daysBeforeMonth_le (year month : ℕ) : daysBeforeMonth year month ≤ month * 31 := by
  have hsum := Finset.sum_le_card_nsmul (Finset.Ico 1 month) (daysInMonth year) 31
    fun m _ => daysInMonth_le year m
  rw [Nat.card_Ico, smul_eq_mul] at hsum
  exact hsum.trans (Nat.mul_le_mul_right 31 (Nat.sub_le month 1))

/-- The days before a month are those before the last one, and those in it. -/
theorem daysBeforeMonth_succ (year : ℕ) {month : ℕ} (h : 1 ≤ month) :
    daysBeforeMonth year (month + 1) = daysBeforeMonth year month + daysInMonth year month :=
  Finset.sum_Ico_succ_top h _

/-- The days of the year before a month, from the table that C libraries use. -/
theorem daysBeforeMonth_eq (year : ℕ) {month : ℕ} (h1 : 1 ≤ month) (h12 : month ≤ 12) :
    daysBeforeMonth year month
      = [0, 31, 59, 90, 120, 151, 181, 212, 243, 273, 304, 334].getD (month - 1) 0
        + if IsLeap year ∧ 3 ≤ month then 1 else 0 := by
  induction month, h1 using Nat.le_induction with
  | base => simp [daysBeforeMonth]
  | succ month h1 ih =>
    rw [daysBeforeMonth_succ year h1, ih (by omega)]
    have h11 : month ≤ 11 := by omega
    unfold daysInMonth
    by_cases hleap : IsLeap year
    · interval_cases month <;> simp [hleap]
    · interval_cases month <;> simp [hleap]

end MacdTradingBot.Calendar
