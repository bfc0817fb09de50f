import Mathlib.Algebra.BigOperators.Intervals

/-!
# The Gregorian calendar

Dates and the time of day, counted from the first of January of an epoch.
Months are numbered from 0 and days from 1, and there are no leap seconds.
-/

namespace Calendar

/-- Every fourth year, of the centuries every fourth. -/
def leap (year : Nat) : Prop :=
  year % 4 = 0 ∧ (year % 100 ≠ 0 ∨ year % 400 = 0)

instance (year : Nat) : Decidable (leap year) :=
  inferInstanceAs
    (Decidable (year % 4 = 0 ∧ (year % 100 ≠ 0 ∨ year % 400 = 0)))

def yearDays (year : Nat) : Nat := if leap year then 366 else 365

def monthDays (year month : Nat) : Nat :=
  match month with
  | 1 => if leap year then 29 else 28
  | 3 | 5 | 8 | 10 => 30
  | _ => 31

/-- The days of the years from the epoch up to `year`. -/
def daysBeforeYear (epoch year : Nat) : Nat :=
  ∑ earlier ∈ Finset.Ico epoch year, yearDays earlier

/-- The days of the months of `year` before `month`. -/
def daysBeforeMonth (year month : Nat) : Nat :=
  ∑ earlier ∈ Finset.range month, monthDays year earlier

/-- A date that exists. -/
structure Date where
  year : Nat
  month : Nat
  day : Nat
  month_lt : month < 12
  day_pos : 1 ≤ day
  day_le : day ≤ monthDays year month

/-- A date and a time of day. -/
structure Moment extends Date where
  hour : Nat
  minute : Nat
  second : Nat
  hour_lt : hour < 24
  minute_lt : minute < 60
  second_lt : second < 60

/-- The days from the first of January of the epoch to the date. -/
def Date.days (epoch : Nat) (date : Date) : Nat :=
  daysBeforeYear epoch date.year + daysBeforeMonth date.year date.month +
    (date.day - 1)

def Moment.seconds (epoch : Nat) (moment : Moment) : Nat :=
  moment.days epoch * 86400 + moment.hour * 3600 + moment.minute * 60 +
    moment.second

/-! ## Counting in sections

A position within one section comes before every position within a later
one.
-/

theorem position_lt {start size : Nat → Nat} {low high first : Nat}
    (second : Nat)
    (next : ∀ index, low ≤ index →
      start (index + 1) = start index + size index)
    (within : first < size low) (later : low < high) :
    start low + first < start high + second := by
  induction high, later using Nat.le_induction with
  | base =>
      rw [next low le_rfl]
      omega
  | succ high later induction =>
      rw [next high (by omega)]
      omega

theorem daysBeforeYear_epoch (epoch : Nat) :
    daysBeforeYear epoch epoch = 0 := by
  simp [daysBeforeYear]

theorem daysBeforeYear_succ {epoch year : Nat} (from_epoch : epoch ≤ year) :
    daysBeforeYear epoch (year + 1) =
      daysBeforeYear epoch year + yearDays year :=
  Finset.sum_Ico_succ_top from_epoch yearDays

theorem daysBeforeMonth_succ (year month : Nat) :
    daysBeforeMonth year (month + 1) =
      daysBeforeMonth year month + monthDays year month :=
  Finset.sum_range_succ (monthDays year) month

theorem daysBeforeMonth_twelve (year : Nat) :
    daysBeforeMonth year 12 = yearDays year := by
  unfold daysBeforeMonth yearDays
  simp only [Finset.sum_range_succ, Finset.sum_range_zero, monthDays]
  split <;> rfl

/-! ## Earlier dates have smaller counts -/

/-- The two dates differ first in a component that is smaller in `left`. -/
def Date.Before (left right : Date) : Prop :=
  left.year < right.year ∨ left.year = right.year ∧
    (left.month < right.month ∨ left.month = right.month ∧
      left.day < right.day)

def Moment.Before (left right : Moment) : Prop :=
  left.toDate.Before right.toDate ∨
    (left.year = right.year ∧ left.month = right.month ∧
        left.day = right.day) ∧
      (left.hour < right.hour ∨ left.hour = right.hour ∧
        (left.minute < right.minute ∨ left.minute = right.minute ∧
          left.second < right.second))

/-- The days of the year before the date. -/
def Date.dayOfYear (date : Date) : Nat :=
  daysBeforeMonth date.year date.month + (date.day - 1)

theorem Date.days_eq (epoch : Nat) (date : Date) :
    date.days epoch = daysBeforeYear epoch date.year + date.dayOfYear :=
  Nat.add_assoc _ _ _

theorem Date.dayOfYear_lt (date : Date) :
    date.dayOfYear < yearDays date.year := by
  have within : date.day - 1 < monthDays date.year date.month := by
    have least := date.day_pos
    have greatest := date.day_le
    omega
  have before : daysBeforeMonth date.year date.month + (date.day - 1) <
      daysBeforeMonth date.year 12 + 0 :=
    position_lt 0 (fun month _ => daysBeforeMonth_succ date.year month)
      within date.month_lt
  rw [daysBeforeMonth_twelve, Nat.add_zero] at before
  exact before

theorem Date.days_lt_days {epoch : Nat} {left right : Date}
    (from_epoch : epoch ≤ left.year) (before : left.Before right) :
    left.days epoch < right.days epoch := by
  rw [left.days_eq, right.days_eq]
  rcases before with earlierYear | ⟨sameYear, earlierMonth | ⟨sameMonth,
    earlierDay⟩⟩
  · exact position_lt _ (fun year after =>
      daysBeforeYear_succ (le_trans from_epoch after)) left.dayOfYear_lt
      earlierYear
  · have within : left.day - 1 < monthDays left.year left.month := by
      have least := left.day_pos
      have greatest := left.day_le
      omega
    have inYear : left.dayOfYear < right.dayOfYear := by
      unfold Date.dayOfYear
      rw [← sameYear]
      exact position_lt _
        (fun month _ => daysBeforeMonth_succ left.year month) within earlierMonth
    rw [← sameYear]
    omega
  · have least := left.day_pos
    have inYear : left.dayOfYear < right.dayOfYear := by
      unfold Date.dayOfYear
      rw [← sameYear, ← sameMonth]
      omega
    rw [← sameYear]
    omega

theorem Moment.seconds_lt_seconds {epoch : Nat} {left right : Moment}
    (from_epoch : epoch ≤ left.year) (before : left.Before right) :
    left.seconds epoch < right.seconds epoch := by
  have leftHour := left.hour_lt
  have leftMinute := left.minute_lt
  have leftSecond := left.second_lt
  unfold Moment.seconds
  rcases before with earlierDate | ⟨⟨sameYear, sameMonth, sameDay⟩,
    earlierTime⟩
  · have days := Date.days_lt_days from_epoch earlierDate
    omega
  · have days : left.days epoch = right.days epoch := by
      unfold Date.days
      rw [sameYear, sameMonth, sameDay]
    omega

end Calendar
