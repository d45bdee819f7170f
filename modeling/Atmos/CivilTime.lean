/-!
# Calendar time

The conversions of the C library between an instant, counted in seconds, and a
broken-down time in GMT, for the Gregorian calendar extended to all years.

A year is taken to begin in March, so that the leap day is its last: then the
days before a month and the days before a year are both given by a division.

* `dayNumber_dateOf` — the day number of the date of a day is that day;
* `timegm_gmtimeR` — `timegm` undoes `gmtime_r`.
-/

namespace CivilTime

/-! ## Dates -/

/-- A date; the day may lie outside its month. -/
@[ext] structure Date where
  year : Int
  month : Int
  day : Int
  deriving DecidableEq, Repr

/-- The days before the year that begins in March of `year`, from March of year
zero. -/
def daysBeforeYear (year : Int) : Int := 365 * year + year / 4 - year / 100 + year / 400

/-- The days before a month, counted from March. -/
def daysBeforeMonth (month : Int) : Int := (153 * month + 2) / 5

/-- The days from the first of January 1970 to a date. -/
def dayNumber (date : Date) : Int :=
  daysBeforeYear (if date.month ≤ 2 then date.year - 1 else date.year) +
    daysBeforeMonth ((date.month + 9) % 12) + date.day - 1 - 719468

/-- The year of a day and the days that have passed in it, from March of year
zero. A cycle of 400 years has one day more than four centuries have, a century
one less than its cycles of four years, and such a cycle one more than four
years. -/
def yearOf (days : Int) : Int × Int :=
  let cycle := days % 146097
  let century := min (cycle / 36524) 3
  let inCentury := cycle - 36524 * century
  let leapCycle := inCentury / 1461
  let inLeapCycle := inCentury - 1461 * leapCycle
  let year := min (inLeapCycle / 365) 3
  (400 * (days / 146097) + 100 * century + 4 * leapCycle + year, inLeapCycle - 365 * year)

/-- The date of a day of a year that begins in March. -/
def dateIn (year inYear : Int) : Date :=
  let month := (5 * inYear + 2) / 153
  { year := if month < 10 then year else year + 1
    month := if month < 10 then month + 3 else month - 9
    day := inYear - daysBeforeMonth month + 1 }

/-- The date of a day, counted from the first of January 1970. -/
def dateOf (days : Int) : Date :=
  dateIn (yearOf (days + 719468)).1 (yearOf (days + 719468)).2

theorem daysBeforeYear_split {century leapCycle year : Int} (cycles : Int)
    (hcentury : 0 ≤ century ∧ century ≤ 3) (hleap : 0 ≤ leapCycle ∧ leapCycle ≤ 24)
    (hyear : 0 ≤ year ∧ year ≤ 3) :
    daysBeforeYear (400 * cycles + 100 * century + 4 * leapCycle + year) =
      146097 * cycles + 36524 * century + 1461 * leapCycle + 365 * year := by
  have hquarter : (400 * cycles + 100 * century + 4 * leapCycle + year) / 4 =
      100 * cycles + 25 * century + leapCycle := by omega
  have hhundredth : (400 * cycles + 100 * century + 4 * leapCycle + year) / 100 =
      4 * cycles + century := by omega
  have hcycle : (400 * cycles + 100 * century + 4 * leapCycle + year) / 400 = cycles := by omega
  rw [daysBeforeYear, hquarter, hhundredth, hcycle]
  omega

theorem yearOf_spec (days : Int) :
    daysBeforeYear (yearOf days).1 + (yearOf days).2 = days ∧
      0 ≤ (yearOf days).2 ∧ (yearOf days).2 ≤ 365 := by
  have hsplit := Int.mul_ediv_add_emod days 146097
  have hnonneg := Int.emod_nonneg days (b := 146097) (by decide)
  have hlt := Int.emod_lt_of_pos days (b := 146097) (by decide)
  dsimp only [yearOf]
  generalize days % 146097 = cycle at *
  -- what is left of a unit is below its days, or at them in the last unit of a longer one
  obtain ⟨century, hcentury⟩ : ∃ century, min (cycle / 36524) 3 = century := ⟨_, rfl⟩
  have hinCentury : (0 ≤ century ∧ century ≤ 3) ∧
      0 ≤ cycle - 36524 * century ∧ cycle - 36524 * century ≤ 36524 := by omega
  obtain ⟨leapCycle, hleap⟩ : ∃ leapCycle, (cycle - 36524 * century) / 1461 = leapCycle :=
    ⟨_, rfl⟩
  have hinLeap : (0 ≤ leapCycle ∧ leapCycle ≤ 24) ∧
      0 ≤ cycle - 36524 * century - 1461 * leapCycle ∧
      cycle - 36524 * century - 1461 * leapCycle ≤ 1460 := by omega
  obtain ⟨year, hyear⟩ :
      ∃ year, min ((cycle - 36524 * century - 1461 * leapCycle) / 365) 3 = year := ⟨_, rfl⟩
  have hinYear : (0 ≤ year ∧ year ≤ 3) ∧
      0 ≤ cycle - 36524 * century - 1461 * leapCycle - 365 * year ∧
      cycle - 36524 * century - 1461 * leapCycle - 365 * year ≤ 365 := by omega
  rw [hcentury, hleap, hyear, daysBeforeYear_split _ hinCentury.1 hinLeap.1 hinYear.1]
  exact ⟨by omega, hinYear.2⟩

theorem dayNumber_dateIn (year : Int) {inYear : Int} (h : 0 ≤ inYear ∧ inYear ≤ 365) :
    dayNumber (dateIn year inYear) = daysBeforeYear year + inYear - 719468 := by
  dsimp only [dateIn, dayNumber]
  by_cases hmonth : (5 * inYear + 2) / 153 < 10
  · have hlate : ¬ (5 * inYear + 2) / 153 + 3 ≤ 2 := by omega
    have hback : ((5 * inYear + 2) / 153 + 3 + 9) % 12 = (5 * inYear + 2) / 153 := by omega
    simp only [if_pos hmonth, if_neg hlate, hback]
    omega
  · have hearly : (5 * inYear + 2) / 153 - 9 ≤ 2 := by omega
    have hback : ((5 * inYear + 2) / 153 - 9 + 9) % 12 = (5 * inYear + 2) / 153 := by omega
    simp only [if_neg hmonth, if_pos hearly, hback, Int.add_sub_cancel]
    omega

/-- **The day number of the date of a day** is that day. -/
theorem dayNumber_dateOf (days : Int) : dayNumber (dateOf days) = days := by
  obtain ⟨hyear, hinYear⟩ := yearOf_spec (days + 719468)
  rw [dateOf, dayNumber_dateIn _ hinYear, hyear, Int.add_sub_cancel]

example : dateOf 15675 = ⟨2012, 12, 1⟩ := by decide

theorem dateOf_spec (days : Int) :
    (1 ≤ (dateOf days).month ∧ (dateOf days).month ≤ 12) ∧
      1 ≤ (dateOf days).day ∧ (dateOf days).day ≤ 31 := by
  obtain ⟨-, hinYear⟩ := yearOf_spec (days + 719468)
  dsimp only [dateOf, dateIn, daysBeforeMonth]
  constructor
  · split <;> omega
  · omega

/-! ## Instants -/

/-- `struct tm`, without the members that `timegm` does not read. -/
@[ext] structure BrokenDownTime where
  tmSec : Int32
  tmMin : Int32
  tmHour : Int32
  tmMday : Int32
  /-- months since January -/
  tmMon : Int32
  /-- years since 1900 -/
  tmYear : Int32
  deriving DecidableEq, Repr

/-- `timegm`: a month outside the year counts on into other years, and the
other members are not bounded either. -/
def timegm (tm : BrokenDownTime) : Int64 :=
  .ofInt (86400 * dayNumber
      { year := 1900 + tm.tmYear.toInt + tm.tmMon.toInt / 12
        month := tm.tmMon.toInt % 12 + 1
        day := tm.tmMday.toInt } +
    3600 * tm.tmHour.toInt + 60 * tm.tmMin.toInt + tm.tmSec.toInt)

/-- `gmtime_r`; it fails where the year does not fit its member. -/
def gmtimeR (time : Int64) : Option BrokenDownTime :=
  let date := dateOf (time.toInt / 86400)
  let inDay := time.toInt % 86400
  let year := date.year - 1900
  if Int32.minValue.toInt ≤ year ∧ year ≤ Int32.maxValue.toInt then
    some
      { tmSec := .ofInt (inDay % 60)
        tmMin := .ofInt (inDay / 60 % 60)
        tmHour := .ofInt (inDay / 3600)
        tmMday := .ofInt date.day
        tmMon := .ofInt (date.month - 1)
        tmYear := .ofInt year }
  else none

theorem toInt_ofInt32 {n : Int} (h : Int32.minValue.toInt ≤ n ∧ n ≤ Int32.maxValue.toInt) :
    (Int32.ofInt n).toInt = n := by
  have hmin : Int32.minValue.toInt = -2147483648 := rfl
  have hmax : Int32.maxValue.toInt = 2147483647 := rfl
  exact Int32.toInt_ofInt_of_le (by omega) (by omega)

/-- The year of an instant fits where it has at most four digits. -/
theorem gmtimeR_isSome_of_year {time : Int64}
    (h : 1 ≤ (dateOf (time.toInt / 86400)).year ∧ (dateOf (time.toInt / 86400)).year ≤ 9999) :
    (gmtimeR time).isSome := by
  have hmin : Int32.minValue.toInt = -2147483648 := rfl
  have hmax : Int32.maxValue.toInt = 2147483647 := rfl
  dsimp only [gmtimeR]
  rw [if_pos (by omega)]
  rfl

/-- What the members of a result hold. -/
theorem gmtimeR_eq_some {time : Int64} {tm : BrokenDownTime} (h : gmtimeR time = some tm) :
    tm.tmSec.toInt = time.toInt % 86400 % 60 ∧
      tm.tmMin.toInt = time.toInt % 86400 / 60 % 60 ∧
      tm.tmHour.toInt = time.toInt % 86400 / 3600 ∧
      tm.tmMday.toInt = (dateOf (time.toInt / 86400)).day ∧
      tm.tmMon.toInt = (dateOf (time.toInt / 86400)).month - 1 ∧
      tm.tmYear.toInt = (dateOf (time.toInt / 86400)).year - 1900 := by
  have hmin : Int32.minValue.toInt = -2147483648 := rfl
  have hmax : Int32.maxValue.toInt = 2147483647 := rfl
  obtain ⟨hmonth, hday⟩ := dateOf_spec (time.toInt / 86400)
  dsimp only [gmtimeR] at h
  split at h
  · rename_i hyear
    cases h
    refine ⟨toInt_ofInt32 ?_, toInt_ofInt32 ?_, toInt_ofInt32 ?_, toInt_ofInt32 ?_,
      toInt_ofInt32 ?_, toInt_ofInt32 hyear⟩ <;> omega
  · cases h

/-- **`timegm` undoes `gmtime_r`.** -/
theorem timegm_gmtimeR {time : Int64} {tm : BrokenDownTime} (h : gmtimeR time = some tm) :
    timegm tm = time := by
  obtain ⟨hsec, hmin, hhour, hmday, hmon, hyear⟩ := gmtimeR_eq_some h
  obtain ⟨hmonth, -⟩ := dateOf_spec (time.toInt / 86400)
  have hdate : (⟨1900 + tm.tmYear.toInt + tm.tmMon.toInt / 12, tm.tmMon.toInt % 12 + 1,
      tm.tmMday.toInt⟩ : Date) = dateOf (time.toInt / 86400) := by
    apply Date.ext <;> dsimp only <;> omega
  rw [timegm, hdate, dayNumber_dateOf, hsec, hmin, hhour, ← time.ofInt_toInt]
  congr 1
  rw [Int64.ofInt_toInt]
  omega

end CivilTime
