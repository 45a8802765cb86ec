import Mathlib.Data.Int.Init

namespace Calendar

/-- The broken-down time counts its months from zero. -/
structure Tm where
  tmMin : Int
  tmHour : Int
  tmMday : Int
  tmMon : Int
  deriving DecidableEq, Repr

/-- The days from March 1 of the year 0 to January 1, 1970. -/
def epochAdjustmentDays : Int := 719468

/-- An era has 400 years. -/
def daysPerEra : Int := 146097

/-- The year of an era from the day of the era, both counted from zero. -/
def eryear (eraday : Int) : Int :=
  (eraday - eraday / 1460 + eraday / 36524 - eraday / (daysPerEra - 1)) / 365

/-- The day of a year that starts in March. -/
def yearday (eraday : Int) : Int :=
  eraday - (365 * eryear eraday + eryear eraday / 4 - eryear eraday / 100)

/-- The month of a year that starts in March. -/
def marchMonth (yearday : Int) : Int := (yearday * 5 + 2) / 153

/-- The conversion of the seconds since 1970 to universal time. -/
def gmtime (seconds : Int) : Tm :=
  let days := seconds / 86400 + epochAdjustmentDays
  let rem := seconds % 86400
  let day := yearday (days % daysPerEra)
  let month := marchMonth day
  { tmMin := rem % 3600 / 60
    tmHour := rem / 3600
    tmMday := day - (month * 153 + 2) / 5 + 1
    tmMon := if month < 10 then month + 2 else month - 10 }

/-- The local time of a zone without summer time. -/
def localtime (offset seconds : Int) : Tm := gmtime (seconds + offset)

example : gmtime 1709251199 = ⟨59, 23, 29, 1⟩ := by decide

/-- The fields of a broken-down time stay in their ranges. -/
structure Tm.Valid (time : Tm) : Prop where
  tmMin : 0 ≤ time.tmMin ∧ time.tmMin ≤ 59
  tmHour : 0 ≤ time.tmHour ∧ time.tmHour ≤ 23
  tmMday : 1 ≤ time.tmMday ∧ time.tmMday ≤ 31
  tmMon : 0 ≤ time.tmMon ∧ time.tmMon ≤ 11

/-- A year of an era has at most 366 days. -/
theorem yearday_range (eraday : Int) (start : 0 ≤ eraday) (inside : eraday < daysPerEra) :
    0 ≤ yearday eraday ∧ yearday eraday ≤ 365 := by
  unfold yearday
  generalize era : eryear eraday = year
  unfold eryear daysPerEra at *
  -- a century ends early and the last day of the era belongs to its last century
  have parts : eraday / 36524 = 0 ∧ eraday / 146096 = 0 ∨ eraday / 36524 = 1 ∧ eraday / 146096 = 0 ∨
      eraday / 36524 = 2 ∧ eraday / 146096 = 0 ∨ eraday / 36524 = 3 ∧ eraday / 146096 = 0 ∨
      eraday / 36524 = 4 ∧ eraday / 146096 = 1 := by omega
  have century : year / 100 = eraday / 36524 - eraday / 146096 := by
    rcases parts with part | part | part | part | part <;> omega
  have leap : eraday / 1460 = year / 4 ∨ eraday / 1460 = year / 4 + 1 := by
    rcases parts with part | part | part | part | part <;> omega
  omega

theorem marchMonth_range (day : Int) (start : 0 ≤ day) (inside : day ≤ 365) :
    (0 ≤ marchMonth day ∧ marchMonth day ≤ 11) ∧
      1 ≤ day - (marchMonth day * 153 + 2) / 5 + 1 ∧ day - (marchMonth day * 153 + 2) / 5 + 1 ≤ 31 := by
  unfold marchMonth
  omega

/-- Every number of seconds has a valid time. -/
theorem gmtime_valid (seconds : Int) : (gmtime seconds).Valid := by
  have era := Int.emod_nonneg (seconds / 86400 + epochAdjustmentDays) (show daysPerEra ≠ 0 by decide)
  have inside := Int.emod_lt_of_pos (seconds / 86400 + epochAdjustmentDays) (show 0 < daysPerEra by decide)
  obtain ⟨first, last⟩ := yearday_range _ era inside
  obtain ⟨month, day⟩ := marchMonth_range _ first last
  constructor
  · show 0 ≤ seconds % 86400 % 3600 / 60 ∧ seconds % 86400 % 3600 / 60 ≤ 59
    omega
  · show 0 ≤ seconds % 86400 / 3600 ∧ seconds % 86400 / 3600 ≤ 23
    omega
  · exact day
  · unfold gmtime
    dsimp only
    split <;> omega

theorem localtime_valid (offset seconds : Int) : (localtime offset seconds).Valid :=
  gmtime_valid (seconds + offset)

end Calendar
