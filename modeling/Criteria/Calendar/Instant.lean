/-
# Criteria.Calendar.Instant -- points in time

An instant is a second since 1970-01-01T00:00:00Z and the nanoseconds in it.
The nanoseconds of any second may run on from one to two thousand million.  In the
last second of a minute that is a leap second, and it is written as second 60; any
other second is then written as the next one.  Instants reach from the year -262143 to
the year 262142, both included.  `Instant.of?` refuses everything else, and nanoseconds
that run on in any other second than the last of a minute.
-/
import Criteria.Calendar.Date

namespace Criteria.Calendar

set_option autoImplicit false

def secondsPerDay : Int := 86400

/-- The first second of the year -262143. -/
def earliestSecond : Int := yearStart (-262143) * secondsPerDay

/-- The last second of the year 262142. -/
def latestSecond : Int := yearStart 262143 * secondsPerDay - 1

/-- A point in time, in UTC. -/
structure Instant where
  second : Int
  nano : Nat
  inRange : earliestSecond ≤ second ∧ second ≤ latestSecond
  inSecond : nano < 2000000000
  deriving DecidableEq

namespace Instant

/-- The start of a second. -/
def ofSecond (second : Int) (inRange : earliestSecond ≤ second ∧ second ≤ latestSecond) : Instant :=
  ⟨second, 0, inRange, by decide⟩

/-- The instant of a second and its nanoseconds, if a clock can show it: only the last
second of a minute may be a leap second. -/
def of? (second : Int) (nano : Nat) : Option Instant :=
  if inRange : earliestSecond ≤ second ∧ second ≤ latestSecond then
    if onClock : nano < 1000000000 ∨ (nano < 2000000000 ∧ second % 60 = 59) then
      some ⟨second, nano, inRange, by omega⟩
    else none
  else none

/-- The instant a count of milliseconds since 1970 after that year's start, or
before it when negative. -/
def ofMillis? (millis : Int) : Option Instant :=
  of? (millis / 1000) ((millis % 1000).toNat * 1000000)

/-- The instant a time of day has on a date.  `second` may be 60, the leap second. -/
def ofClock? (date : Date) (hour minute second nano : Nat) (offsetSeconds : Int) : Option Instant :=
  let leap := second == 60
  let clock : Int := hour * 3600 + minute * 60 + (if leap then 59 else second)
  of? (date.dayNumber * secondsPerDay + clock - offsetSeconds)
    (if leap then nano + 1000000000 else nano)

def date (i : Instant) : Date :=
  .ofDayNumber (i.second / secondsPerDay)

/-- Hour, minute and second of the day; the second is 60 in a leap second. -/
def clock (i : Instant) : Nat × Nat × Nat :=
  let ofDay := (i.second % secondsPerDay).toNat
  (ofDay / 3600, ofDay / 60 % 60, ofDay % 60 + i.nano / 1000000000)

/-- The nanoseconds of the fraction that is written after the second. -/
def fraction (i : Instant) : Nat :=
  i.nano % 1000000000

end Instant

end Criteria.Calendar
