import Mathlib.Data.Nat.Find
import Mathlib.Order.Interval.Finset.Nat

/-!
# The calendar

Days are counted from the first of January 1970, in the calendar with a leap year every
four years but for three of four centuries. Months are counted from 0. A date with a month
or a day out of range stands for the day that many months and days further on.
-/

namespace Rsu.Data.Calendar

/-- The leap years. -/
def leap (year : Int) : Bool := (year % 4 = 0 && year % 100 ≠ 0) || year % 400 = 0

/-- The days of the months of a common year or of a leap year. -/
def monthDays (leap : Bool) (month : Nat) : Nat :=
  [31, if leap then 29 else 28, 31, 30, 31, 30, 31, 31, 30, 31, 30, 31].getD month 0

/-- The days of a year in front of a month. -/
def monthStart (leap : Bool) : Nat → Nat
  | 0 => 0
  | month + 1 => monthStart leap month + monthDays leap month

/-- The days of a year. -/
def yearDays (leap : Bool) : Nat := if leap then 366 else 365

/-- The first day of a year. -/
def yearStart (year : Int) : Int :=
  365 * (year - 1970) + ((year - 1) / 4 - (year - 1) / 100 + (year - 1) / 400) - 477

/-- The year of a day: the guess by the average length of a year is off by one at most. -/
def yearOf (day : Int) : Int :=
  let guess := 1970 + 400 * day / 146097
  if yearStart (guess + 1) ≤ day then guess + 1
  else if yearStart guess ≤ day then guess
  else guess - 1

/-- The month of a day of a year. -/
def monthOf (leap : Bool) (day : Nat) : Nat := Nat.findGreatest (monthStart leap · ≤ day) 11

/-- The epoch begins with 1970. -/
theorem yearStart_epoch : yearStart 1970 = 0 := by decide

/-- The years follow each other. -/
theorem yearStart_succ (year : Int) :
    yearStart (year + 1) = yearStart year + yearDays (leap year) := by
  unfold yearStart yearDays leap
  split <;> simp_all <;> omega

/-- A later year begins later. -/
theorem yearStart_mono {year other : Int} (le : year ≤ other) :
    yearStart year ≤ yearStart other := by
  unfold yearStart
  omega

/-- 400 years have 146097 days. -/
theorem yearStart_bounds (year : Int) :
    146097 * (year - 1970) - 1000 ≤ 400 * yearStart year ∧
      400 * yearStart year ≤ 146097 * (year - 1970) + 1000 := by
  unfold yearStart
  omega

/-- A day belongs to its year. -/
theorem yearOf_spec (day : Int) :
    yearStart (yearOf day) ≤ day ∧ day < yearStart (yearOf day + 1) := by
  unfold yearOf
  generalize guessed : 1970 + 400 * day / 146097 = guess
  have before := yearStart_bounds (guess - 1)
  have behind := yearStart_bounds (guess + 1 + 1)
  simp only
  split_ifs with next this
  · exact ⟨next, by omega⟩
  · exact ⟨this, by omega⟩
  · rw [Int.sub_add_cancel]
    exact ⟨by omega, by omega⟩

/-- The years of the days from the start of a year on. -/
theorem le_yearOf_iff (year day : Int) : year ≤ yearOf day ↔ yearStart year ≤ day := by
  obtain ⟨begun, ends⟩ := yearOf_spec day
  constructor
  · exact fun le => le_trans (yearStart_mono le) begun
  · intro le
    by_contra later
    have next : yearOf day + 1 ≤ year := by omega
    exact absurd (lt_of_lt_of_le ends (le_trans (yearStart_mono next) le)) (lt_irrefl day)

/-- A year has at most 366 days. -/
theorem monthStart_le (leap : Bool) {month : Nat} (inside : month ≤ 12) :
    monthStart leap month ≤ 366 := by
  have all : ∀ leap : Bool, ∀ month ≤ 12, monthStart leap month ≤ 366 := by decide
  exact all leap month inside

/-- A day of a year belongs to its month. -/
theorem monthOf_spec {leap : Bool} {day : Nat} (inside : day < yearDays leap) :
    monthOf leap day < 12 ∧ monthStart leap (monthOf leap day) ≤ day ∧
      day < monthStart leap (monthOf leap day + 1) := by
  have small : monthOf leap day ≤ 11 := Nat.findGreatest_le 11
  have first : monthStart leap 0 ≤ day := Nat.zero_le day
  refine ⟨Nat.lt_succ_of_le small, Nat.findGreatest_spec (P := (monthStart leap · ≤ day))
    (Nat.zero_le 11) first, ?_⟩
  by_contra later
  rcases Nat.lt_or_ge (monthOf leap day) 11 with less | last
  · exact Nat.findGreatest_is_greatest (Nat.lt_succ_self _) less (not_lt.1 later)
  · have year : monthStart leap 12 = yearDays leap := by cases leap <;> decide
    rw [le_antisymm small last, year] at later
    exact later inside

/-- A date, the month counted from 0 and the day from 1. -/
structure Date where
  year : Int
  month : Int
  mday : Int

namespace Date

/-- The day a date stands for. -/
def day (date : Date) : Int :=
  yearStart (date.year + date.month / 12) +
    monthStart (leap (date.year + date.month / 12)) (date.month % 12).toNat + date.mday - 1

/-- The date of a day. -/
def ofDay (day : Int) : Date :=
  let year := yearOf day
  let inside := (day - yearStart year).toNat
  let month := monthOf (leap year) inside
  ⟨year, month, inside - monthStart (leap year) month + 1⟩

/-- The month is one of the year, and the day one of the month. -/
structure Valid (date : Date) : Prop where
  month : 0 ≤ date.month ∧ date.month < 12
  mday : 1 ≤ date.mday ∧ date.mday ≤ monthDays (leap date.year) date.month.toNat

end Date

/-- The place of a day in its year. -/
theorem yearOf_place (day : Int) :
    ∃ place : Nat, (day - yearStart (yearOf day)).toNat = place ∧
      yearStart (yearOf day) + place = day ∧ place < yearDays (leap (yearOf day)) := by
  obtain ⟨begun, ends⟩ := yearOf_spec day
  rw [yearStart_succ] at ends
  exact ⟨_, rfl, by omega, by omega⟩

/-- The date of a day is one. -/
theorem ofDay_valid (day : Int) : (Date.ofDay day).Valid := by
  obtain ⟨place, same, -, inside⟩ := yearOf_place day
  obtain ⟨month, begun, ends⟩ := monthOf_spec inside
  rw [monthStart] at ends
  simp only [Date.ofDay, same]
  refine ⟨⟨Int.natCast_nonneg _, Int.ofNat_lt.2 month⟩, ?_, ?_⟩
  · simp only
    omega
  · simp only [Int.toNat_natCast]
    omega

/-- The date of a day stands for it. -/
theorem day_ofDay (day : Int) : (Date.ofDay day).day = day := by
  obtain ⟨place, same, split, inside⟩ := yearOf_place day
  obtain ⟨month, begun, -⟩ := monthOf_spec inside
  have year : yearOf day + (monthOf (leap (yearOf day)) place : Int) / 12 = yearOf day := by omega
  have kept : ((monthOf (leap (yearOf day)) place : Int) % 12).toNat =
      monthOf (leap (yearOf day)) place := by omega
  simp only [Date.ofDay, Date.day, same, year, kept]
  omega

end Rsu.Data.Calendar
