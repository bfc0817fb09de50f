import Mathlib.Tactic.IntervalCases
import Linux011.Library.Calendar
import Linux011.Sched.Schedule

/-!
# The start-up time

`kernel_mktime` and `time_init`.  All values are 32-bit ints, kept as integers
that wrap.
-/

namespace Linux011.Time

open Calendar Linux011.Sched

/-- The fields of `struct tm` that the kernel sets. -/
structure Tm where
  tmSec : Int
  tmMin : Int
  tmHour : Int
  tmMday : Int
  tmMon : Int
  tmYear : Int
  deriving DecidableEq

def minute : Int := 60

def hour : Int := 60 * minute

def day : Int := 24 * hour

def year : Int := 365 * day

/-- The seconds before each month of a leap year. -/
def month : List Int :=
  [0,
    day * 31,
    day * (31 + 29),
    day * (31 + 29 + 31),
    day * (31 + 29 + 31 + 30),
    day * (31 + 29 + 31 + 30 + 31),
    day * (31 + 29 + 31 + 30 + 31 + 30),
    day * (31 + 29 + 31 + 30 + 31 + 30 + 31),
    day * (31 + 29 + 31 + 30 + 31 + 30 + 31 + 31),
    day * (31 + 29 + 31 + 30 + 31 + 30 + 31 + 31 + 30),
    day * (31 + 29 + 31 + 30 + 31 + 30 + 31 + 31 + 30 + 31),
    day * (31 + 29 + 31 + 30 + 31 + 30 + 31 + 31 + 30 + 31 + 30)]

/-- The local `year` of `kernel_mktime`. -/
def yearsSince1970 (tm : Tm) : Int :=
  if tm.tmYear ≥ 70 then long (tm.tmYear - 70)
  else long (tm.tmYear + 100 - 70)

/-- `kernel_mktime`; `none` where `month` is indexed beyond its end. -/
def kernelMktime (tm : Tm) : Option Int :=
  if tm.tmMon < 0 then none
  else
    match month[tm.tmMon.toNat]? with
    | none => none
    | some before =>
        let y := yearsSince1970 tm
        let res := long (year * y + day * (long (y + 1)).tdiv 4)
        let res := long (res + before)
        let res :=
          if tm.tmMon > 1 ∧ (long (y + 2)).tmod 4 ≠ 0 then long (res - day)
          else res
        let res := long (res + day * (tm.tmMday - 1))
        let res := long (res + hour * tm.tmHour)
        let res := long (res + minute * tm.tmMin)
        some (long (res + tm.tmSec))

/-- The registers that one pass of the loop of `time_init` reads, the seconds
twice. -/
structure CmosRound where
  sec : Nat
  min : Nat
  hour : Nat
  mday : Nat
  mon : Nat
  year : Nat
  again : Nat

/-- `BCD_TO_BIN`. -/
def bcdToBin (val : Nat) : Nat := (val &&& 15) + (val >>> 4) * 10

/-- `time_init` over the passes that the clock's answers make, with the value
of `startup_time`; `none` also while the seconds always change in a pass. -/
def timeInit : List CmosRound → Option Int
  | [] => none
  | round :: rest =>
      if round.sec ≠ round.again then timeInit rest
      else
        kernelMktime
          { tmSec := bcdToBin round.sec
            tmMin := bcdToBin round.min
            tmHour := bcdToBin round.hour
            tmMday := bcdToBin round.mday
            tmMon := (bcdToBin round.mon : Int) - 1
            tmYear := bcdToBin round.year }

/-! ## What a `struct tm` stands for -/

/-- The two-digit years from 70 on are in the twentieth century. -/
def fullYear (tmYear : Int) : Int :=
  if 70 ≤ tmYear then 1900 + tmYear else 2000 + tmYear

/-- The broken-down time is that moment, with two digits for the year. -/
structure Tm.Denotes (tm : Tm) (moment : Moment) : Prop where
  twoDigits : 0 ≤ tm.tmYear ∧ tm.tmYear ≤ 99
  year : (moment.year : Int) = fullYear tm.tmYear
  month : (moment.month : Int) = tm.tmMon
  day : (moment.day : Int) = tm.tmMday
  hour : (moment.hour : Int) = tm.tmHour
  minute : (moment.minute : Int) = tm.tmMin
  second : (moment.second : Int) = tm.tmSec

namespace Tm.Denotes

variable {tm : Tm} {moment : Moment}

theorem year_bounds (denotes : tm.Denotes moment) :
    1970 ≤ moment.year ∧ moment.year ≤ 2069 := by
  obtain ⟨least, greatest⟩ := denotes.twoDigits
  have same := denotes.year
  unfold fullYear at same
  split at same <;> omega

theorem yearsSince1970 (denotes : tm.Denotes moment) :
    Time.yearsSince1970 tm = moment.year - 1970 := by
  obtain ⟨least, greatest⟩ := denotes.twoDigits
  have same := denotes.year
  unfold fullYear at same
  unfold Time.yearsSince1970
  split at same
  · rw [if_pos (by omega), long_of_fits (by omega) (by omega)]
    omega
  · rw [if_neg (by omega), long_of_fits (by omega) (by omega)]
    omega

end Tm.Denotes

/-! ## The leap days

Between 1970 and 2069 every fourth year is a leap year, the centuries
included.
-/

theorem leap_iff {years : Nat} (within : years ≤ 99) :
    leap (1970 + years) ↔ (years + 2) % 4 = 0 := by
  unfold leap
  omega

theorem daysBeforeYear_eq (years : Nat) (within : years ≤ 99) :
    daysBeforeYear 1970 (1970 + years) = 365 * years + (years + 1) / 4 := by
  induction years with
  | zero => exact daysBeforeYear_epoch 1970
  | succ years induction =>
      rw [← Nat.add_assoc, daysBeforeYear_succ (by omega),
        induction (by omega)]
      unfold yearDays
      simp only [leap_iff (show years ≤ 99 by omega)]
      split <;> omega

/-- The table counts the days of a leap year; in another year the days after
February are one less. -/
theorem month_eq (full : Nat) {index : Nat} (exists' : index < 12) :
    month[index]? = some (day * (daysBeforeMonth full index +
      if 1 < index ∧ ¬ leap full then 1 else 0)) := by
  unfold daysBeforeMonth
  by_cases isLeap : leap full <;>
    interval_cases index <;>
    simp [month, Finset.sum_range_succ, monthDays, isLeap, day, hour, minute]

theorem long_add_long (left right : Int) :
    long (long left + right) = long (left + right) :=
  Int.bmod_add_bmod

theorem long_sub_long (left right : Int) :
    long (long left - right) = long (left - right) :=
  Int.bmod_sub_bmod

/-- The test of `kernel_mktime` for a date after February of a year that is
not a leap year. -/
theorem afterFebruary_iff {years index : Nat} (within : years ≤ 99) :
    ((index : Int) > 1 ∧ (long ((years : Int) + 2)).tmod 4 ≠ 0) ↔
      1 < index ∧ ¬ leap (1970 + years) := by
  rw [long_of_fits (by omega) (by omega), leap_iff within,
    Int.tmod_eq_emod_of_nonneg (by omega)]
  omega

theorem kernelMktime_denotes {tm : Tm} {moment : Moment}
    (denotes : tm.Denotes moment) :
    kernelMktime tm = some (long (moment.seconds 1970)) := by
  obtain ⟨least, greatest⟩ := denotes.year_bounds
  obtain ⟨years, sum⟩ := Nat.exists_eq_add_of_le least
  have since : yearsSince1970 tm = years := by
    rw [denotes.yearsSince1970, sum]
    omega
  have leapDays : (long ((years : Int) + 1)).tdiv 4 = ((years + 1) / 4 : Nat) :=
    by
    rw [long_of_fits (by omega) (by omega),
      Int.tdiv_eq_ediv_of_nonneg (by omega)]
    omega
  have beforeYear := daysBeforeYear_eq years (by omega)
  have positive := moment.day_pos
  unfold kernelMktime Moment.seconds Date.days
  rw [← denotes.month, ← denotes.day, ← denotes.hour, ← denotes.minute,
    ← denotes.second, if_neg (by omega), Int.toNat_natCast,
    month_eq moment.year moment.month_lt, sum, beforeYear]
  simp only [since, leapDays, afterFebruary_iff (show years ≤ 99 by omega)]
  by_cases after : 1 < moment.month ∧ ¬ leap (1970 + years)
  · simp only [if_pos after, long_add_long, long_sub_long, Option.some.injEq]
    refine congrArg long ?_
    unfold year day hour minute
    omega
  · simp only [if_neg after, long_add_long, long_sub_long, Option.some.injEq]
    refine congrArg long ?_
    unfold year day hour minute
    omega

/-! ## The calendar -/

theorem seconds_before_2038 {moment : Moment} (least : 1970 ≤ moment.year)
    (greatest : moment.year ≤ 2037) :
    moment.seconds 1970 ≤ 2147483647 := by
  obtain ⟨years, sum⟩ := Nat.exists_eq_add_of_le least
  have beforeYear := daysBeforeYear_eq (years + 1) (by omega)
  rw [← Nat.add_assoc, daysBeforeYear_succ (by omega)] at beforeYear
  have inYear := moment.dayOfYear_lt
  have hourBound := moment.hour_lt
  have minuteBound := moment.minute_lt
  have secondBound := moment.second_lt
  unfold Moment.seconds
  rw [moment.days_eq, sum]
  rw [sum] at inYear
  omega

/-- The returned time is the number of seconds since the beginning of 1970 in
the Gregorian calendar, as a 32-bit long, and a later time up to the end of
2037 has a larger one. -/
theorem kernelMktime_calendar :
    (∀ tm moment, tm.Denotes moment →
      kernelMktime tm = some (long (moment.seconds 1970))) ∧
    ∀ earlier later first second, earlier.Denotes first →
      later.Denotes second → first.Before second → second.year ≤ 2037 →
      ∃ left right, kernelMktime earlier = some left ∧
        kernelMktime later = some right ∧ left < right := by
  refine ⟨fun tm moment denotes => kernelMktime_denotes denotes, ?_⟩
  intro earlier later first second earlierDenotes laterDenotes before bound
  have least := earlierDenotes.year_bounds.1
  have increasing := Moment.seconds_lt_seconds least before
  have greatest : second.seconds 1970 ≤ 2147483647 :=
    seconds_before_2038 laterDenotes.year_bounds.1 bound
  refine ⟨_, _, kernelMktime_denotes earlierDenotes,
    kernelMktime_denotes laterDenotes, ?_⟩
  rw [long_of_fits (by omega) (by omega), long_of_fits (by omega) (by omega)]
  omega

/-- The end of February 2000, a century with a leap day, at noon. -/
def leapDay : Moment where
  year := 2000
  month := 1
  day := 29
  month_lt := by decide
  day_pos := by decide
  day_le := by decide
  hour := 12
  minute := 0
  second := 0
  hour_lt := by decide
  minute_lt := by decide
  second_lt := by decide

def leapDayTm : Tm := ⟨0, 0, 12, 29, 1, 0⟩

/-- The midnight that ends it. -/
def firstOfMarch : Moment where
  year := 2000
  month := 2
  day := 1
  month_lt := by decide
  day_pos := by decide
  day_le := by decide
  hour := 0
  minute := 0
  second := 0
  hour_lt := by decide
  minute_lt := by decide
  second_lt := by decide

def firstOfMarchTm : Tm := ⟨0, 0, 0, 1, 2, 0⟩

theorem leapDayTm_denotes : leapDayTm.Denotes leapDay :=
  ⟨by decide, rfl, rfl, rfl, rfl, rfl, rfl⟩

theorem firstOfMarchTm_denotes : firstOfMarchTm.Denotes firstOfMarch :=
  ⟨by decide, rfl, rfl, rfl, rfl, rfl, rfl⟩

theorem kernelMktime_leapDay :
    kernelMktime leapDayTm = some (long (leapDay.seconds 1970)) ∧
      kernelMktime leapDayTm = some 951825600 ∧
      ∃ left right, kernelMktime leapDayTm = some left ∧
        kernelMktime firstOfMarchTm = some right ∧ left < right :=
  ⟨kernelMktime_calendar.1 _ _ leapDayTm_denotes, by decide,
    kernelMktime_calendar.2 _ _ _ _ leapDayTm_denotes firstOfMarchTm_denotes
      (.inl (.inr ⟨rfl, .inl (by decide)⟩)) (by decide)⟩

/-! ## The clock's registers -/

/-- Two decimal digits, one in each half of a byte. -/
def bcd (value : Nat) : Nat := value / 10 * 16 + value % 10

theorem bcdToBin_bcd (value : Nat) : bcdToBin (bcd value) = value := by
  have low : bcd value &&& 15 = bcd value % 16 :=
    Nat.and_two_pow_sub_one_eq_mod (bcd value) 4
  unfold bcdToBin
  rw [low, Nat.shiftRight_eq_div_pow]
  unfold bcd
  omega

/-- The registers show the moment and did not change during the pass. -/
structure CmosRound.Shows (round : CmosRound) (moment : Moment) : Prop where
  sec : round.sec = bcd moment.second
  min : round.min = bcd moment.minute
  hour : round.hour = bcd moment.hour
  mday : round.mday = bcd moment.day
  mon : round.mon = bcd (moment.month + 1)
  year : round.year = bcd (moment.year % 100)
  steady : round.again = round.sec

/-- `startup_time` is the moment of the first pass in which the seconds did
not change. -/
theorem timeInit_of_shows {torn rest : List CmosRound} {round : CmosRound}
    {moment : Moment}
    (changing : ∀ earlier ∈ torn, earlier.sec ≠ earlier.again)
    (shows' : round.Shows moment) (least : 1970 ≤ moment.year)
    (greatest : moment.year ≤ 2069) :
    timeInit (torn ++ round :: rest) =
      some (long (moment.seconds 1970)) := by
  induction torn with
  | nil =>
      rw [List.nil_append, timeInit, if_neg (by simp [shows'.steady]),
        shows'.sec, shows'.min, shows'.hour, shows'.mday, shows'.mon,
        shows'.year]
      simp only [bcdToBin_bcd]
      refine kernelMktime_denotes
        { twoDigits := by dsimp only; omega
          year := ?_
          month := by dsimp only; omega
          day := rfl
          hour := rfl
          minute := rfl
          second := rfl }
      unfold fullYear
      dsimp only
      split <;> omega
  | cons earlier torn induction =>
      have changed := changing earlier List.mem_cons_self
      rw [List.cons_append, timeInit, if_pos changed]
      exact induction fun later member =>
        changing later (List.mem_cons_of_mem earlier member)

/-- The second pass shows noon on the leap day. -/
theorem timeInit_of_shows_leapDay :
    timeInit ([⟨89, 89, 17, 41, 2, 0, 0⟩] ++ [⟨0, 0, 18, 41, 2, 0, 0⟩]) =
      some (long (leapDay.seconds 1970)) :=
  timeInit_of_shows (by decide) ⟨rfl, rfl, rfl, rfl, rfl, rfl, rfl⟩ (by decide)
    (by decide)

end Linux011.Time
