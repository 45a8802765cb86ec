import DesktopCube.Library.Calendar

namespace Calendar

/-- The year is counted from 1900 as in the C library. -/
@[ext]
structure DateTime extends Tm where
  tmSec : Int
  tmYear : Int
  deriving DecidableEq, Repr

def DateTime.year (time : DateTime) : Int := time.tmYear + 1900

def leap (year : Int) : Bool := year % 4 = 0 && (year % 100 ≠ 0 || year % 400 = 0)

/-- The days from January 1, 1970 to the first day of the year. -/
def daysBeforeYear (year : Int) : Int :=
  365 * (year - 1970) + (year - 1) / 4 - (year - 1) / 100 + (year - 1) / 400 - 477

def daysInMonth (leap : Bool) : Nat → Int
  | 1 => if leap then 29 else 28
  | 3 | 5 | 8 | 10 => 30
  | _ => 31

def daysBeforeMonth (leap : Bool) : Nat → Int
  | 0 => 0
  | month + 1 => daysBeforeMonth leap month + daysInMonth leap month

/-- The day of a date, counted from January 1, 1970. -/
def DateTime.day (time : DateTime) : Int :=
  daysBeforeYear time.year + daysBeforeMonth (leap time.year) time.tmMon.toNat + time.tmMday - 1

/-- The conversion of a universal time to the seconds since 1970. -/
def mktime (time : DateTime) : Int :=
  time.day * 86400 + time.tmHour * 3600 + time.tmMin * 60 + time.tmSec

/-- The whole conversion of the seconds since 1970 to universal time. -/
def dateTime (seconds : Int) : DateTime :=
  let days := seconds / 86400 + epochAdjustmentDays
  let year := eryear (days % daysPerEra) + days / daysPerEra * 400
  { gmtime seconds with
    tmSec := seconds % 86400 % 60
    tmYear := (if (gmtime seconds).tmMon ≤ 1 then year + 1 else year) - 1900 }

example : dateTime 1709251199 = ⟨⟨59, 23, 29, 1⟩, 59, 124⟩ := by decide
example : mktime ⟨⟨59, 23, 29, 1⟩, 59, 124⟩ = 1709251199 := by decide

/-- The date exists in its year. -/
structure DateTime.Valid (time : DateTime) : Prop where
  fields : time.toTm.Valid
  tmSec : 0 ≤ time.tmSec ∧ time.tmSec ≤ 59
  tmMday : time.tmMday ≤ daysInMonth (leap time.year) time.tmMon.toNat

/-- A leap year has 366 days. -/
theorem daysBeforeYear_succ (year : Int) :
    daysBeforeYear (year + 1) = daysBeforeYear year + if leap year then 366 else 365 := by
  unfold daysBeforeYear
  cases long : leap year with
  | true =>
      simp only [leap, Bool.and_eq_true, Bool.or_eq_true, decide_eq_true_eq] at long
      simp only [if_true]
      omega
  | false =>
      simp only [leap, Bool.and_eq_false_iff, Bool.or_eq_false_iff, decide_eq_false_iff_not] at long
      simp only [Bool.false_eq_true, if_false]
      omega

theorem eryear_range (eraday : Int) (start : 0 ≤ eraday) (inside : eraday < daysPerEra) :
    0 ≤ eryear eraday ∧ eryear eraday ≤ 399 := by
  unfold eryear daysPerEra at *
  omega

/-- The last day of a year that starts in March is February 29. -/
theorem leap_of_yearday (eraday era : Int) (start : 0 ≤ eraday) (inside : eraday < daysPerEra)
    (last : yearday eraday = 365) : leap (eryear eraday + era * 400 + 1) = true := by
  obtain ⟨first, final⟩ := eryear_range eraday start inside
  have next : yearday eraday = 365 → (eryear eraday + 1) % 4 = 0 ∧
      ((eryear eraday + 1) % 100 ≠ 0 ∨ (eryear eraday + 1) % 400 = 0) := by
    unfold yearday
    generalize era : eryear eraday = year at *
    unfold eryear daysPerEra at *
    intro last
    -- a century ends early and the last day of the era belongs to its last century
    have parts : eraday / 36524 = 0 ∧ eraday / 146096 = 0 ∨ eraday / 36524 = 1 ∧ eraday / 146096 = 0 ∨
        eraday / 36524 = 2 ∧ eraday / 146096 = 0 ∨ eraday / 36524 = 3 ∧ eraday / 146096 = 0 ∨
        eraday / 36524 = 4 ∧ eraday / 146096 = 1 := by omega
    have century : year / 100 = eraday / 36524 - eraday / 146096 := by
      rcases parts with part | part | part | part | part <;> omega
    have leap : eraday / 1460 = year / 4 ∨ eraday / 1460 = year / 4 + 1 := by
      rcases parts with part | part | part | part | part <;> omega
    have fourth : year % 4 = 3 := by
      have remainder : year % 4 = 0 ∨ year % 4 = 1 ∨ year % 4 = 2 ∨ year % 4 = 3 := by omega
      rcases remainder with rest | rest | rest | rest <;> omega
    refine ⟨by omega, ?_⟩
    rcases parts with part | part | part | part | part <;> omega
  have rule := next last
  simp only [leap, Bool.and_eq_true, Bool.or_eq_true, decide_eq_true_eq]
  omega

/-- A year that starts in March has its months in the order of the table. -/
theorem daysBeforeMonth_march (leap : Bool) (month : Int) (start : 0 ≤ month) (inside : month ≤ 11) :
    daysBeforeMonth leap (if month < 10 then month + 2 else month - 10).toNat =
      (month * 153 + 2) / 5 + if month < 10 then 59 + (if leap then 1 else 0) else -306 := by
  obtain ⟨number, rfl⟩ := Int.eq_ofNat_of_zero_le start
  have small : number < 12 := by omega
  have table : ∀ leap : Bool, ∀ number : Fin 12,
      daysBeforeMonth leap (if (number.val : Int) < 10 then (number.val : Int) + 2 else (number.val : Int) - 10).toNat =
        ((number.val : Int) * 153 + 2) / 5 +
          if (number.val : Int) < 10 then 59 + (if leap then 1 else 0) else -306 := by decide
  exact table leap ⟨number, small⟩

/-- Only the last month of a March year depends on the year. -/
theorem daysInMonth_march (leap : Bool) (month : Int) (start : 0 ≤ month) (inside : month ≤ 10) :
    daysInMonth leap (if month < 10 then month + 2 else month - 10).toNat =
      ((month + 1) * 153 + 2) / 5 - (month * 153 + 2) / 5 := by
  obtain ⟨number, rfl⟩ := Int.eq_ofNat_of_zero_le start
  have table : ∀ leap : Bool, ∀ number : Fin 11,
      daysInMonth leap (if (number.val : Int) < 10 then (number.val : Int) + 2 else (number.val : Int) - 10).toNat =
        (((number.val : Int) + 1) * 153 + 2) / 5 - ((number.val : Int) * 153 + 2) / 5 := by decide
  exact table leap ⟨number, by omega⟩

section Parts

variable (seconds : Int)

/-- The day of the era that contains the second. -/
def eraday : Int := (seconds / 86400 + epochAdjustmentDays) % daysPerEra

/-- The year that starts in March and contains the second. -/
def marchYear : Int :=
  eryear (eraday seconds) + (seconds / 86400 + epochAdjustmentDays) / daysPerEra * 400

theorem eraday_range : 0 ≤ eraday seconds ∧ eraday seconds < daysPerEra :=
  ⟨Int.emod_nonneg _ (by decide), Int.emod_lt_of_pos _ (by decide)⟩

theorem month_range : 0 ≤ marchMonth (yearday (eraday seconds)) ∧ marchMonth (yearday (eraday seconds)) ≤ 11 := by
  obtain ⟨start, inside⟩ := eraday_range seconds
  obtain ⟨first, last⟩ := yearday_range _ start inside
  exact (marchMonth_range _ first last).1

/-- January and February belong to the March year before. -/
theorem dateTime_year : (dateTime seconds).year =
    if marchMonth (yearday (eraday seconds)) < 10 then marchYear seconds else marchYear seconds + 1 := by
  obtain ⟨start, inside⟩ := month_range seconds
  show (if (if marchMonth (yearday (eraday seconds)) < 10 then marchMonth (yearday (eraday seconds)) + 2
    else marchMonth (yearday (eraday seconds)) - 10) ≤ 1 then marchYear seconds + 1 else marchYear seconds) -
      1900 + 1900 = _
  split <;> split <;> omega

/-- A March year starts 306 days before the year that it ends in. -/
theorem marchYear_start : daysBeforeYear (marchYear seconds + 1) - 306 + yearday (eraday seconds) =
    seconds / 86400 := by
  obtain ⟨start, inside⟩ := eraday_range seconds
  obtain ⟨first, last⟩ := eryear_range _ start inside
  have split := Int.mul_ediv_add_emod (seconds / 86400 + epochAdjustmentDays) daysPerEra
  unfold daysBeforeYear marchYear yearday
  unfold eraday at *
  unfold daysPerEra epochAdjustmentDays at *
  omega

theorem dateTime_day : (dateTime seconds).day = seconds / 86400 := by
  obtain ⟨start, inside⟩ := month_range seconds
  have started := marchYear_start seconds
  have long := daysBeforeYear_succ (marchYear seconds)
  unfold DateTime.day
  rw [dateTime_year]
  show _ + daysBeforeMonth _ (if marchMonth (yearday (eraday seconds)) < 10 then
    marchMonth (yearday (eraday seconds)) + 2 else marchMonth (yearday (eraday seconds)) - 10).toNat +
      (yearday (eraday seconds) - (marchMonth (yearday (eraday seconds)) * 153 + 2) / 5 + 1) - 1 = _
  rw [daysBeforeMonth_march _ _ start inside]
  by_cases spring : marchMonth (yearday (eraday seconds)) < 10
  · simp only [if_pos spring]
    split at long <;> rename_i year <;> simp only [year, if_true, if_false, Bool.false_eq_true] <;> omega
  · simp only [if_neg spring]
    omega

/-- The conversion back finds every number of seconds again. -/
theorem mktime_dateTime : mktime (dateTime seconds) = seconds := by
  unfold mktime
  rw [dateTime_day]
  show seconds / 86400 * 86400 + seconds % 86400 / 3600 * 3600 + seconds % 86400 % 3600 / 60 * 60 +
    seconds % 86400 % 60 = seconds
  omega

/-- Every number of seconds has a date that exists. -/
theorem dateTime_valid : (dateTime seconds).Valid := by
  obtain ⟨start, inside⟩ := month_range seconds
  obtain ⟨early, late⟩ := eraday_range seconds
  obtain ⟨first, last⟩ := yearday_range _ early late
  refine ⟨gmtime_valid seconds, ?_, ?_⟩
  · show 0 ≤ seconds % 86400 % 60 ∧ seconds % 86400 % 60 ≤ 59
    omega
  · rw [dateTime_year]
    show yearday (eraday seconds) - (marchMonth (yearday (eraday seconds)) * 153 + 2) / 5 + 1 ≤ daysInMonth _
      (if marchMonth (yearday (eraday seconds)) < 10 then marchMonth (yearday (eraday seconds)) + 2
        else marchMonth (yearday (eraday seconds)) - 10).toNat
    by_cases february : marchMonth (yearday (eraday seconds)) = 11
    · have long (end_ : yearday (eraday seconds) = 365) : leap (marchYear seconds + 1) = true :=
        leap_of_yearday _ _ early late end_
      rw [february]
      show yearday (eraday seconds) - 337 + 1 ≤ if leap (marchYear seconds + 1) then 29 else 28
      split
      · omega
      · rename_i short
        have before : yearday (eraday seconds) ≠ 365 := fun end_ => short (long end_)
        omega
    · rw [daysInMonth_march _ _ start (by omega)]
      unfold marchMonth
      omega

end Parts

section Uniqueness

variable {time other : DateTime}

theorem daysBeforeMonth_bounds (leap : Bool) (month : Int) (start : 0 ≤ month) (inside : month ≤ 11) :
    0 ≤ daysBeforeMonth leap month.toNat ∧
      daysBeforeMonth leap month.toNat + daysInMonth leap month.toNat ≤ if leap then 366 else 365 := by
  have table : ∀ leap : Bool, ∀ month : Fin 12, 0 ≤ daysBeforeMonth leap month.val ∧
      daysBeforeMonth leap month.val + daysInMonth leap month.val ≤ if leap then 366 else 365 := by decide
  exact table leap ⟨month.toNat, by omega⟩

/-- A month ends before a later one starts. -/
theorem daysBeforeMonth_lt (leap : Bool) (month later : Int) (start : 0 ≤ month) (order : month < later)
    (inside : later ≤ 11) :
    daysBeforeMonth leap month.toNat + daysInMonth leap month.toNat ≤ daysBeforeMonth leap later.toNat := by
  have table : ∀ leap : Bool, ∀ month later : Fin 12, month < later →
      daysBeforeMonth leap month.val + daysInMonth leap month.val ≤ daysBeforeMonth leap later.val := by decide
  apply table leap ⟨month.toNat, by omega⟩ ⟨later.toNat, by omega⟩
  show month.toNat < later.toNat
  omega

theorem daysBeforeYear_lt (year later : Int) (order : year < later) :
    daysBeforeYear (year + 1) ≤ daysBeforeYear later := by
  unfold daysBeforeYear
  omega

namespace DateTime.Valid

/-- A date that exists lies in its year. -/
theorem day_range (valid : time.Valid) :
    daysBeforeYear time.year ≤ time.day ∧ time.day < daysBeforeYear (time.year + 1) := by
  obtain ⟨start, inside⟩ := valid.fields.tmMon
  obtain ⟨first, last⟩ := daysBeforeMonth_bounds (leap time.year) _ start inside
  have day := valid.fields.tmMday
  have fits := valid.tmMday
  rw [daysBeforeYear_succ]
  unfold DateTime.day
  omega

theorem year_le (valid : time.Valid) (later : other.Valid) (same : time.day = other.day) :
    time.year ≤ other.year := by
  apply Int.not_lt.mp
  intro order
  have ends := daysBeforeYear_lt other.year time.year (by omega)
  have before := valid.day_range
  have after := later.day_range
  omega

theorem tmMon_le (valid : time.Valid) (later : other.Valid) (year : time.year = other.year)
    (same : time.day = other.day) : time.tmMon ≤ other.tmMon := by
  apply Int.not_lt.mp
  intro order
  have ends := daysBeforeMonth_lt (leap time.year) other.tmMon time.tmMon later.fields.tmMon.1 (by omega)
    valid.fields.tmMon.2
  have day := valid.fields.tmMday
  have fits := later.tmMday
  unfold DateTime.day at same
  rw [← year] at fits same
  omega

/-- Two dates that exist at the same second are the same. -/
theorem unique (valid : time.Valid) (existing : other.Valid) (same : mktime time = mktime other) :
    time = other := by
  have seconds := valid.tmSec
  have otherSeconds := existing.tmSec
  obtain ⟨minute, hour, _, _⟩ := valid.fields
  obtain ⟨otherMinute, otherHour, _, _⟩ := existing.fields
  unfold mktime at same
  have day : time.day = other.day := by omega
  have year : time.year = other.year :=
    Int.le_antisymm (valid.year_le existing day) (existing.year_le valid day.symm)
  have month : time.tmMon = other.tmMon :=
    Int.le_antisymm (valid.tmMon_le existing year day) (existing.tmMon_le valid year.symm day.symm)
  have monthDay : time.tmMday = other.tmMday := by
    unfold DateTime.day at day
    rw [year, month] at day
    omega
  unfold DateTime.year at year
  apply DateTime.ext
  · omega
  · omega
  · exact monthDay
  · exact month
  · omega
  · omega

end DateTime.Valid

end Uniqueness

end Calendar
