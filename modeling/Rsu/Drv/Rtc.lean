import Rsu.Data.Calendar
import Rsu.Vam.Lip

/-!
# `cv_drv_rtc.c`: the clock set by the receiver

`gps_hctosys` tests a time for being one, but `gps_to_tm` has put it into a `struct tm` and
called `mktime`, and that makes a date of any fields. What is left of the test is the year.
-/

namespace Rsu.Drv

open Rsu.Data.Calendar Rsu.Vam

/-- `struct tm`. There is no daylight saving time. -/
structure Tm where
  sec : Int
  min : Int
  hour : Int
  mday : Int
  mon : Int
  year : Int
  deriving DecidableEq

namespace Tm

/-- The date, which may have any month and day. -/
def date (tm : Tm) : Date := ⟨tm.year + 1900, tm.mon, tm.mday⟩

/-- The seconds from the start of 1970 on the same clock. -/
def seconds (tm : Tm) : Int := ((tm.date.day * 24 + tm.hour) * 60 + tm.min) * 60 + tm.sec

/-- The time at some seconds, with all fields in their ranges. -/
def ofSeconds (seconds : Int) : Tm :=
  let date := Date.ofDay (seconds / 86400)
  { sec := seconds % 60
    min := seconds % 3600 / 60
    hour := seconds % 86400 / 3600
    mday := date.mday
    mon := date.month
    year := date.year - 1900 }

end Tm

/-- The seconds by which the local time is ahead. -/
def localAhead : Int := 8 * 3600

/-- `mktime`: the fields are brought into their ranges, and the value is the instant of
the local time. `time_t` is wide enough for it. -/
def mktime (tm : Tm) : Tm × Int := (.ofSeconds tm.seconds, tm.seconds - localAhead)

/-- The conversion of an `int` to an `unsigned int`. -/
def unsigned (value : Int) : Nat := (value % 2 ^ 32).toNat

/-- `rtc_days_in_month` -/
def rtcDaysInMonth : List Nat := [31, 28, 31, 30, 31, 30, 31, 31, 30, 31, 30, 31]

/-- `is_leap_year` -/
def isLeapYear (year : Nat) : Bool := (year % 4 = 0 && year % 100 ≠ 0) || year % 400 = 0

/-- `rtc_month_days` -/
def rtcMonthDays (month year : Nat) : Int :=
  rtcDaysInMonth.getD month 0 + if isLeapYear year && month = 1 then 1 else 0

/-- `gps_to_tm`. The result of `gmtime` is not looked at. -/
def gpsToTm (gpsTime : TTime) : Tm :=
  (mktime {
    year := gpsTime.year.toNat - 1900
    mon := gpsTime.mon.toNat - 1
    mday := gpsTime.day.toNat
    hour := gpsTime.hour.toNat + 8
    min := gpsTime.min.toNat
    sec := gpsTime.sec.toNat }).1

/-- `gps_valid_tm` -/
def gpsValidTm (tm : Tm) : Int :=
  if tm.year < 70 ∨ unsigned tm.mon ≥ 12 ∨ tm.mday < 1 ∨
      tm.mday > rtcMonthDays (unsigned tm.mon) (unsigned (tm.year + 1900)) ∨
      unsigned tm.hour ≥ 24 ∨ unsigned tm.min ≥ 60 ∨ unsigned tm.sec ≥ 60 then -1
  else 0

/-- `gps_hctosys`: the value, and the seconds that `settimeofday` is called with. -/
def gpsHctosys (gpsTime : TTime) : Int × Option Int :=
  let tm := gpsToTm gpsTime
  let err := gpsValidTm tm
  if err ≠ 0 then (err, none) else (err, some (mktime tm).2)

/-- The date in a time of the receiver. -/
def gpsDate (gpsTime : TTime) : Date :=
  ⟨gpsTime.year.toNat, gpsTime.mon.toNat - 1, gpsTime.day.toNat⟩

/-- The instant of a time of the receiver. -/
def gpsInstant (gpsTime : TTime) : Int :=
  (((gpsDate gpsTime).day * 24 + gpsTime.hour.toNat) * 60 + gpsTime.min.toNat) * 60 +
    gpsTime.sec.toNat

/-- The time is one of a day since 1970. -/
structure Genuine (gpsTime : TTime) : Prop where
  year : 1970 ≤ gpsTime.year.toNat
  date : (gpsDate gpsTime).Valid
  hour : gpsTime.hour.toNat < 24
  min : gpsTime.min.toNat < 60
  sec : gpsTime.sec.toNat < 60

/-- The clock is set to a time that is one, and only to such a time. -/
def SetsClock (gpsTime : TTime) : Prop :=
  (Genuine gpsTime → gpsHctosys gpsTime = (0, some (gpsInstant gpsTime))) ∧
    (¬ Genuine gpsTime → gpsHctosys gpsTime = (-1, none))

section Clock

/-- The broken-down time stands for its seconds. -/
theorem seconds_ofSeconds (seconds : Int) : (Tm.ofSeconds seconds).seconds = seconds := by
  have date : (Tm.ofSeconds seconds).date = Date.ofDay (seconds / 86400) := by
    simp [Tm.date, Tm.ofSeconds]
  rw [Tm.seconds, date, day_ofDay]
  simp only [Tm.ofSeconds]
  omega

/-- The leap years of the driver are those of the calendar. -/
theorem isLeapYear_eq (year : Nat) : isLeapYear year = leap year := by
  rw [Bool.eq_iff_iff]
  simp [isLeapYear, leap]
  omega

/-- The two tables of months agree. -/
theorem rtcMonthDays_eq {month : Nat} (inside : month < 12) (year : Nat) :
    rtcMonthDays month year = monthDays (leap year) month := by
  have agree : ∀ leap : Bool, ∀ month < 12,
      rtcDaysInMonth.getD month 0 + (if leap && month = 1 then 1 else 0 : Int) =
        monthDays leap month := by
    decide
  rw [rtcMonthDays, isLeapYear_eq]
  exact agree _ month inside

/-- A value that fits is not wrapped. -/
theorem unsigned_of_lt {value : Int} (nonneg : 0 ≤ value) (small : value < 2 ^ 32) :
    unsigned value = value.toNat := by
  rw [unsigned, Int.emod_eq_of_lt nonneg small]

/-- The days of the month that are looked up for a valid date of a year in range. -/
theorem rtcMonthDays_date {date : Date} (valid : date.Valid) (nonneg : 0 ≤ date.year)
    (small : date.year < 2 ^ 32) :
    unsigned date.month < 12 ∧
      date.mday ≤ rtcMonthDays (unsigned date.month) (unsigned date.year) := by
  obtain ⟨⟨first, last⟩, -, dayLast⟩ := valid
  rw [unsigned_of_lt first (by omega), unsigned_of_lt nonneg small]
  have inside : date.month.toNat < 12 := by omega
  refine ⟨inside, ?_⟩
  rwa [rtcMonthDays_eq inside, Int.toNat_of_nonneg nonneg]

/-- Of a time whose fields are in their ranges, only the year is tested. -/
theorem gpsValidTm_ofSeconds {seconds : Int} (small : seconds < 2 ^ 42) :
    gpsValidTm (Tm.ofSeconds seconds) = if 0 ≤ seconds then 0 else -1 := by
  have since : 1970 ≤ (Date.ofDay (seconds / 86400)).year ↔ 0 ≤ seconds := by
    refine (le_yearOf_iff 1970 _).trans ?_
    rw [yearStart_epoch]
    omega
  have below : (Date.ofDay (seconds / 86400)).year < 2 ^ 32 := by
    refine not_le.1 fun late => ?_
    have start := (yearStart_bounds (2 ^ 32)).1
    have reached := (le_yearOf_iff (2 ^ 32) _).1 late
    omega
  have valid := ofDay_valid (seconds / 86400)
  have sec : unsigned (seconds % 60) < 60 := by
    rw [unsigned_of_lt (by omega) (by omega)]
    omega
  have min : unsigned (seconds % 3600 / 60) < 60 := by
    rw [unsigned_of_lt (by omega) (by omega)]
    omega
  have hour : unsigned (seconds % 86400 / 3600) < 24 := by
    rw [unsigned_of_lt (by omega) (by omega)]
    omega
  simp only [gpsValidTm, Tm.ofSeconds, Int.sub_add_cancel]
  by_cases later : 0 ≤ seconds
  · have year := since.2 later
    obtain ⟨month, mday⟩ := rtcMonthDays_date valid (by omega) below
    have first := valid.mday.1
    rw [if_pos later, if_neg]
    omega
  · have year := mt since.1 later
    rw [if_neg later, if_pos]
    exact .inl (by omega)

variable (gpsTime : TTime)

/-- What the receiver's time comes to on the local clock. -/
theorem gpsToTm_eq :
    gpsToTm gpsTime = Tm.ofSeconds (gpsInstant gpsTime + localAhead) := by
  refine congrArg Tm.ofSeconds ?_
  simp only [Tm.seconds, Tm.date, Int.sub_add_cancel, gpsInstant, gpsDate, localAhead]
  omega

/-- A genuine time is not before 1970. -/
theorem Genuine.since {gpsTime : TTime} (genuine : Genuine gpsTime) : 0 ≤ gpsInstant gpsTime := by
  obtain ⟨first, last⟩ := genuine.date.month
  have mday := genuine.date.mday.1
  have year : 1970 ≤ (gpsDate gpsTime).year + (gpsDate gpsTime).month / 12 := by
    have since : 1970 ≤ (gpsDate gpsTime).year := Int.ofNat_le.2 genuine.year
    omega
  have start := yearStart_mono year
  rw [yearStart_epoch] at start
  simp only [gpsInstant, Date.day]
  omega

/-- No time of the receiver is too late for its year to be an `int`. -/
theorem gpsInstant_lt : gpsInstant gpsTime + localAhead < 2 ^ 42 := by
  have bounds := yearStart_bounds ((gpsDate gpsTime).year + (gpsDate gpsTime).month / 12)
  have month := monthStart_le (leap ((gpsDate gpsTime).year + (gpsDate gpsTime).month / 12))
    (show ((gpsDate gpsTime).month % 12).toNat ≤ 12 by omega)
  have year := gpsTime.year.isLt
  have mon := gpsTime.mon.isLt
  have mday := gpsTime.day.isLt
  have hour := gpsTime.hour.isLt
  have min := gpsTime.min.isLt
  have sec := gpsTime.sec.isLt
  simp only [gpsInstant, localAhead, Date.day]
  simp only [gpsDate] at bounds month ⊢
  omega

/-- The clock is set to any instant of the local 1970 and later. -/
theorem gpsHctosys_eq :
    gpsHctosys gpsTime =
      if 0 ≤ gpsInstant gpsTime + localAhead then (0, some (gpsInstant gpsTime))
      else (-1, none) := by
  rw [gpsHctosys, gpsToTm_eq, gpsValidTm_ofSeconds (gpsInstant_lt gpsTime), mktime,
    seconds_ofSeconds, Int.add_sub_cancel]
  split <;> rfl

end Clock

/-- The clock is set as it should be for the genuine times, and otherwise for those that the
calendar takes to before the local 1970. -/
theorem setsClock_iff (gpsTime : TTime) :
    SetsClock gpsTime ↔ Genuine gpsTime ∨ gpsInstant gpsTime < -localAhead := by
  have outcome := gpsHctosys_eq gpsTime
  constructor
  · rintro ⟨-, refused⟩
    by_contra neither
    obtain ⟨never, late⟩ := not_or.1 neither
    rw [if_pos (by omega), refused never] at outcome
    cases outcome
  · rintro (genuine | early)
    · have since := genuine.since
      have ahead : 0 ≤ localAhead := by decide
      rw [if_pos (by omega)] at outcome
      exact ⟨fun _ => outcome, fun never => absurd genuine never⟩
    · rw [if_neg (by omega)] at outcome
      refine ⟨fun genuine => ?_, fun _ => outcome⟩
      have since := genuine.since
      have ahead : 0 ≤ localAhead := by decide
      omega

/-- Midnight of the 30th of February 2020 sets the clock to the first of March. -/
theorem february_accepted :
    ¬ SetsClock ⟨2020, 2, 30, 0, 0, 0, 0⟩ := by
  rintro ⟨-, refused⟩
  have never : ¬ Genuine ⟨2020, 2, 30, 0, 0, 0, 0⟩ := fun genuine =>
    absurd genuine.date.mday.2 (by decide)
  have outcome := (gpsHctosys_eq ⟨2020, 2, 30, 0, 0, 0, 0⟩).symm.trans (refused never)
  rw [if_pos (by decide)] at outcome
  cases outcome

end Rsu.Drv
