import Mathlib.Algebra.BigOperators.Group.Finset.Basic
import Mathlib.Algebra.BigOperators.Intervals
import Mathlib.Algebra.Order.BigOperators.Group.Finset
import Mathlib.Data.Int.Order.Basic
import Mathlib.Tactic.IntervalCases

/-!
# The proleptic Gregorian calendar

Dates are counted in days from 1 January of the year 0, by the lengths of the
months and the rule for leap years.

* `IsLeap`, `monthLength`, `yearLength_eq`;
* `dayNumber`, and `dayNumber_lt`: a later date has a larger number;
* `civilDays_eq`: the number in closed form, with the year beginning in March.
-/

namespace Calendar

def IsLeap (y : ℕ) : Prop := y % 4 = 0 ∧ (y % 100 ≠ 0 ∨ y % 400 = 0)

instance (y : ℕ) : Decidable (IsLeap y) := inferInstanceAs (Decidable (_ ∧ _))

/-- The days of month `m`, where January is number 1. -/
def monthLength (y m : ℕ) : ℕ :=
  if m = 2 then if IsLeap y then 29 else 28
  else if m = 4 ∨ m = 6 ∨ m = 9 ∨ m = 11 then 30 else 31

/-- The days of year `y` before month `m`. -/
def daysBeforeMonth (y m : ℕ) : ℕ := ∑ i ∈ Finset.Ico 1 m, monthLength y i

/-- The days of the twelve months. -/
def yearLength (y : ℕ) : ℕ := daysBeforeMonth y 13

/-- The days before year `y`. -/
def daysBeforeYear (y : ℕ) : ℕ := ∑ i ∈ Finset.range y, yearLength i

/-- The days from 1 January of the year 0 to day `d` of month `m` of year `y`. -/
def dayNumber (y m d : ℕ) : ℕ := daysBeforeYear y + daysBeforeMonth y m + (d - 1)

/-! ### The lengths of years -/

theorem daysBeforeMonth_succ {y m : ℕ} (hm : 1 ≤ m) :
    daysBeforeMonth y (m + 1) = daysBeforeMonth y m + monthLength y m :=
  Finset.sum_Ico_succ_top hm _

/-- The days before a month, with those from March on counted from 1 March. -/
theorem daysBeforeMonth_eq {y m : ℕ} (hm : 1 ≤ m) (hm' : m ≤ 13) :
    daysBeforeMonth y m =
      if m ≤ 2 then 31 * (m - 1)
      else (if IsLeap y then 60 else 59) + (153 * (m - 3) + 2) / 5 := by
  induction m, hm using Nat.le_induction with
  | base => rfl
  | succ m hm ih =>
    rw [daysBeforeMonth_succ hm, ih (by omega)]
    by_cases h3 : 3 ≤ m
    · rw [if_neg (show ¬ m ≤ 2 by omega), if_neg (show ¬ m + 1 ≤ 2 by omega)]
      have hlength : (153 * (m - 3) + 2) / 5 + monthLength y m = (153 * (m + 1 - 3) + 2) / 5 := by
        have hm12 : m ≤ 12 := by omega
        interval_cases m <;> rfl
      omega
    · have hcases : m = 1 ∨ m = 2 := by omega
      rcases hcases with rfl | rfl
      · rfl
      · by_cases hleap : IsLeap y <;> simp [monthLength, hleap]

theorem yearLength_eq (y : ℕ) : yearLength y = if IsLeap y then 366 else 365 := by
  rw [yearLength, daysBeforeMonth_eq (by omega) le_rfl]
  by_cases hleap : IsLeap y <;> simp [hleap]

theorem daysBeforeYear_succ (y : ℕ) :
    daysBeforeYear (y + 1) = daysBeforeYear y + yearLength y :=
  Finset.sum_range_succ _ _

/-- Every fourth year is a leap year, but only every fourth century year. -/
theorem daysBeforeYear_eq (y : ℕ) :
    daysBeforeYear y = 365 * y + (y + 3) / 4 + (y + 399) / 400 - (y + 99) / 100 := by
  induction y with
  | zero => rfl
  | succ y ih =>
    rw [daysBeforeYear_succ, ih, yearLength_eq]
    by_cases hleap : IsLeap y
    · rw [if_pos hleap]
      unfold IsLeap at hleap
      omega
    · rw [if_neg hleap]
      unfold IsLeap at hleap
      omega

/-! ### Later dates have larger numbers -/

theorem daysBeforeYear_mono {y y' : ℕ} (h : y < y') :
    daysBeforeYear y + yearLength y ≤ daysBeforeYear y' := by
  rw [← daysBeforeYear_succ]
  exact Finset.sum_le_sum_of_subset (Finset.range_mono h)

theorem daysBeforeMonth_mono {y m m' : ℕ} (hm : 1 ≤ m) (h : m < m') :
    daysBeforeMonth y m + monthLength y m ≤ daysBeforeMonth y m' := by
  rw [← daysBeforeMonth_succ hm]
  exact Finset.sum_le_sum_of_subset (Finset.Ico_subset_Ico_right h)

/-- The date exists: a month of the year and a day of that month. -/
structure IsDate (y m d : ℕ) : Prop where
  month_pos : 1 ≤ m
  month_le : m ≤ 12
  day_pos : 1 ≤ d
  day_le : d ≤ monthLength y m

instance (y m d : ℕ) : Decidable (IsDate y m d) :=
  decidable_of_iff (1 ≤ m ∧ m ≤ 12 ∧ 1 ≤ d ∧ d ≤ monthLength y m)
    ⟨fun ⟨h₁, h₂, h₃, h₄⟩ => ⟨h₁, h₂, h₃, h₄⟩,
      fun ⟨h₁, h₂, h₃, h₄⟩ => ⟨h₁, h₂, h₃, h₄⟩⟩

theorem IsDate.lt_yearLength {y m d : ℕ} (h : IsDate y m d) :
    daysBeforeMonth y m + (d - 1) < yearLength y := by
  have hmonth : daysBeforeMonth y m + monthLength y m ≤ daysBeforeMonth y 13 :=
    daysBeforeMonth_mono h.month_pos (Nat.lt_succ_of_le h.month_le)
  have hle := h.day_le
  have hpos := h.day_pos
  rw [yearLength]
  omega

/-- In the order of years, months and days. -/
theorem dayNumber_lt {y m d y' m' d' : ℕ} (h : IsDate y m d) (h' : IsDate y' m' d')
    (hlt : y < y' ∨ y = y' ∧ (m < m' ∨ m = m' ∧ d < d')) :
    dayNumber y m d < dayNumber y' m' d' := by
  unfold dayNumber
  rcases hlt with hy | ⟨rfl, hm | ⟨rfl, hd⟩⟩
  · have hyear := daysBeforeYear_mono hy
    have hin := h.lt_yearLength
    omega
  · have hmonth := daysBeforeMonth_mono (y := y) h.month_pos hm
    have hle := h.day_le
    have hpos := h.day_pos
    omega
  · have hpos := h.day_pos
    omega

/-! ### The number of a day in closed form -/

/-- The days from 1 January 1970, counted in years that begin on 1 March. -/
def civilDays (y m d : ℤ) : ℤ :=
  let y := if m ≤ 2 then y - 1 else y
  let era := y / 400
  let yoe := y - era * 400
  let doy := (153 * ((m + 9) % 12) + 2) / 5 + d - 1
  era * 146097 + yoe * 365 + yoe / 4 - yoe / 100 + doy - 719468

theorem dayNumber_epoch : dayNumber 1970 1 1 = 719528 := by
  rw [dayNumber, daysBeforeYear_eq]
  rfl

theorem civilDays_eq {y m d : ℕ} (hm : 1 ≤ m) (hm' : m ≤ 12) (hd : 1 ≤ d) :
    civilDays y m d = (dayNumber y m d : ℤ) - dayNumber 1970 1 1 := by
  rw [dayNumber_epoch, dayNumber, daysBeforeYear_eq, daysBeforeMonth_eq hm (by omega)]
  simp only [civilDays]
  by_cases h2 : m ≤ 2
  · rw [if_pos h2, if_pos (show (m : ℤ) ≤ 2 by omega)]
    interval_cases m <;> omega
  · rw [if_neg h2, if_neg (show ¬ (m : ℤ) ≤ 2 by omega)]
    -- the months from March on: the leap day of the year is behind
    have hmonth : ((m : ℤ) + 9) % 12 = m - 3 := by omega
    rw [hmonth]
    by_cases hleap : IsLeap y
    · rw [if_pos hleap]
      unfold IsLeap at hleap
      omega
    · rw [if_neg hleap]
      unfold IsLeap at hleap
      omega

end Calendar
