/-
# Criteria.Calendar.Date -- the proleptic Gregorian calendar

A date is a year, a month and a day; `Date.dayNumber` counts days since
1970-01-01 and `Date.ofDayNumber` finds the date of a day again.  The year is
guessed from the mean length of a year and mended by at most one; the month is
found by walking over the lengths of the months.
-/
namespace Criteria.Calendar

set_option autoImplicit false

def isLeapYear (year : Int) : Bool :=
  year % 4 == 0 && (year % 100 != 0 || year % 400 == 0)

/-- The lengths of the twelve months. -/
def monthLengths (leap : Bool) : List Nat :=
  [31, if leap then 29 else 28, 31, 30, 31, 30, 31, 31, 30, 31, 30, 31]

/-- A date that exists: month and day are counted from one. -/
structure Date where
  year : Int
  month : Nat
  day : Nat
  deriving DecidableEq, Repr

/-- The days from 1970-01-01 to the first day of a year. -/
def yearStart (year : Int) : Int :=
  365 * (year - 1) + (year - 1) / 4 - (year - 1) / 100 + (year - 1) / 400 - 719162

/-- The year that a day falls in. -/
def yearOfDay (day : Int) : Int :=
  let guess := (day + 719162) * 400 / 146097 + 1
  if day < yearStart guess then guess - 1
  else if yearStart (guess + 1) ≤ day then guess + 1
  else guess

/-- The month, counted from `month`, and the day of the month of the `ordinal`-th
day (from zero) after the first of `month`. -/
def monthOfOrdinal : List Nat → Nat → Nat → Nat × Nat
  | [], month, ordinal => (month, ordinal + 1)
  | length :: rest, month, ordinal =>
      if ordinal < length then (month, ordinal + 1)
      else monthOfOrdinal rest (month + 1) (ordinal - length)

namespace Date

/-- The date of a year, month and day, if there is one. -/
def of? (year : Int) (month day : Nat) : Option Date :=
  match month with
  | 0 => none
  | index + 1 =>
      match (monthLengths (isLeapYear year))[index]? with
      | some length => if 1 ≤ day ∧ day ≤ length then some ⟨year, month, day⟩ else none
      | none => none

/-- Days since 1970-01-01. -/
def dayNumber (d : Date) : Int :=
  let before : Nat := ((monthLengths (isLeapYear d.year)).take (d.month - 1)).foldl (· + ·) 0
  yearStart d.year + before + (d.day - 1)

/-- The date of a day, counted from 1970-01-01. -/
def ofDayNumber (day : Int) : Date :=
  let year := yearOfDay day
  let (month, dayOfMonth) :=
    monthOfOrdinal (monthLengths (isLeapYear year)) 1 (day - yearStart year).toNat
  ⟨year, month, dayOfMonth⟩

end Date

end Criteria.Calendar
