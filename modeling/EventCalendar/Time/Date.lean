/-!
# Calendar dates

Dates of the proleptic Gregorian calendar in the years 1 to 9999, counted in days from 1970-01-01
(`dayNumber`), given by year, month and day, by week of the year, or by day of the year.
-/

set_option autoImplicit false

namespace EventCalendar.Time

def isLeap (year : Nat) : Bool := year % 4 == 0 && (year % 100 != 0 || year % 400 == 0)

def daysInYear (year : Nat) : Nat := if isLeap year then 366 else 365

/-- The days of a month; zero for a number that is no month. -/
def daysInMonth (year : Nat) : Nat → Nat
  | 1 => 31
  | 2 => if isLeap year then 29 else 28
  | 3 => 31
  | 4 => 30
  | 5 => 31
  | 6 => 30
  | 7 => 31
  | 8 => 31
  | 9 => 30
  | 10 => 31
  | 11 => 30
  | 12 => 31
  | _ => 0

def daysBeforeMonth (year : Nat) : Nat → Nat
  | 0 => 0
  | month + 1 => daysBeforeMonth year month + daysInMonth year month

/-- The days before a year, counted from the beginning of year 1. -/
def daysBeforeYear (year : Nat) : Nat :=
  let past := year - 1
  365 * past + past / 4 - past / 100 + past / 400

/-- The days from the beginning of year 1 to 1970-01-01. -/
def epochDays : Nat := 719162

/-- The number of a date's day, 1970-01-01 being day 0. -/
def dayNumber (year month day : Nat) : Int :=
  (daysBeforeYear year + daysBeforeMonth year month + day : Nat) - 1 - (epochDays : Int)

/-- The number of the last representable day, 9999-12-31. -/
def lastDay : Int := dayNumber 9999 12 31

def isYear (year : Nat) : Bool := 1 ≤ year && year ≤ 9999

/-- The day number of a date given by year, month and day, if there is such a date. -/
def ofYearMonthDay? (year month day : Nat) : Option Int :=
  if isYear year && 1 ≤ month && month ≤ 12 && 1 ≤ day && day ≤ daysInMonth year month then
    some (dayNumber year month day)
  else none

/-- The day of the week, Monday being 0; 1970-01-01 was a Thursday. -/
def weekday (day : Int) : Int := (day + 3) % 7

/-- The day number of a date given by week and day of the week. Week 1 is the week of January 4;
week 53 of a year with 52 weeks runs on into the next year. -/
def ofWeek? (year week day : Nat) : Option Int :=
  if isYear year && 1 ≤ week && week ≤ 53 && 1 ≤ day && day ≤ 7 then
    let january4 := dayNumber year 1 4
    let number := january4 - weekday january4 + 7 * ((week : Int) - 1) + ((day : Int) - 1)
    if number ≤ lastDay then some number else none
  else none

/-- The day number of a date given by the day of the year. -/
def ofYearDay? (year day : Nat) : Option Int :=
  if isYear year && 1 ≤ day && day ≤ daysInYear year then
    some (dayNumber year 1 1 + ((day : Int) - 1))
  else none

theorem dayNumber_epoch : dayNumber 1970 1 1 = 0 := by decide

theorem dayNumber_succ (year month day : Nat) :
    dayNumber year month (day + 1) = dayNumber year month day + 1 := by
  simp only [dayNumber]; omega

end EventCalendar.Time
