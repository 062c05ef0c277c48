/-
# Criteria.Calendar.Text -- instants as text

Two written forms, `Instant.sqlChars` (`2024-03-01 08:00:00`) and
`Instant.timestampChars` (`2024-03-01T08:00:00.250Z`), and two that are read:
`readTimestamp?` takes a whole RFC 3339 timestamp and `readPlainDate?` a date
alone, which stands for its midnight in UTC.
-/
import Criteria.Calendar.Instant
import Criteria.Decimal.Numeral
import Criteria.Text.Blank

namespace Criteria.Calendar

set_option autoImplicit false

open Decimal (digitsValue)

/-! ## Writing -/

/-- The digits of a number, with zeros in front up to the given width. -/
def padded (width n : Nat) : List Char :=
  let digits := Nat.toDigits 10 n
  List.replicate (width - digits.length) '0' ++ digits

/-- A year in four digits; outside `0..9999` with its sign. -/
def yearChars (year : Int) : List Char :=
  (if year < 0 then ['-'] else if 9999 < year then ['+'] else []) ++ padded 4 year.natAbs

def Date.chars (d : Date) : List Char :=
  yearChars d.year ++ '-' :: padded 2 d.month ++ '-' :: padded 2 d.day

namespace Instant

def clockChars (i : Instant) : List Char :=
  let (hour, minute, second) := i.clock
  padded 2 hour ++ ':' :: padded 2 minute ++ ':' :: padded 2 second

/-- The fraction of the second in three, six or nine digits, the fewest that lose
nothing; none at all when it is zero. -/
def fractionChars (i : Instant) : List Char :=
  if i.fraction = 0 then []
  else if i.fraction % 1000000 = 0 then '.' :: padded 3 (i.fraction / 1000000)
  else if i.fraction % 1000 = 0 then '.' :: padded 6 (i.fraction / 1000)
  else '.' :: padded 9 i.fraction

/-- Date and time of day, without the fraction of the second. -/
def sqlChars (i : Instant) : List Char :=
  i.date.chars ++ ' ' :: i.clockChars

def timestampChars (i : Instant) : List Char :=
  i.date.chars ++ 'T' :: i.clockChars ++ i.fractionChars ++ ['Z']

def timestamp (i : Instant) : String :=
  .ofList i.timestampChars

end Instant

/-! ## Reading -/

/-- Exactly `count` digits, and what follows them. -/
def readDigits? (count : Nat) (text : List Char) : Option (Nat × List Char) :=
  let digits := text.take count
  if digits.length = count ∧ digits.all Char.isDigit then
    some (digitsValue digits, text.drop count)
  else none

/-- What follows the given character. -/
def readChar? (c : Char) : List Char → Option (List Char)
  | [] => none
  | d :: rest => if d = c then some rest else none

/-- The nanoseconds a fraction denotes: digits after the ninth do not count. -/
def nanoseconds (digits : List Char) : Nat :=
  digitsValue (digits.take 9) * Nat.pow 10 (9 - digits.length)

/-- An optional fraction of a second: a point and at least one digit. -/
def readFraction? : List Char → Option (Nat × List Char)
  | '.' :: rest =>
      let digits := rest.takeWhile Char.isDigit
      if digits.isEmpty then none else some (nanoseconds digits, rest.dropWhile Char.isDigit)
  | rest => some (0, rest)

/-- The seconds by which a local time is ahead of UTC, from the end of a
timestamp. -/
def readOffset? (text : List Char) : Option Int :=
  match text with
  | ['Z'] => some 0
  | ['z'] => some 0
  | sign :: rest =>
      if sign = '+' ∨ sign = '-' ∨ sign = '\u2212' then do
        let (hours, rest) ← readDigits? 2 rest
        let rest ← readChar? ':' rest
        let (minutes, rest) ← readDigits? 2 rest
        if rest.isEmpty ∧ hours ≤ 23 ∧ minutes ≤ 59 then
          let size : Int := hours * 3600 + minutes * 60
          some (if sign = '+' then size else -size)
        else none
      else none
  | [] => none

/-- Read a whole text as an RFC 3339 timestamp.  A space or a small `t` may stand
for `T`; the second may be 60. -/
def readTimestamp? (text : List Char) : Option Instant := do
  let (year, rest) ← readDigits? 4 text
  let rest ← readChar? '-' rest
  let (month, rest) ← readDigits? 2 rest
  let rest ← readChar? '-' rest
  let (day, rest) ← readDigits? 2 rest
  let rest ← (readChar? 'T' rest <|> readChar? 't' rest <|> readChar? ' ' rest)
  let (hour, rest) ← readDigits? 2 rest
  let rest ← readChar? ':' rest
  let (minute, rest) ← readDigits? 2 rest
  let rest ← readChar? ':' rest
  let (second, rest) ← readDigits? 2 rest
  let (nano, rest) ← readFraction? rest
  let offset ← readOffset? rest
  let date ← Date.of? year month day
  if hour ≤ 23 ∧ minute ≤ 59 ∧ second ≤ 60 then
    Instant.ofClock? date hour minute second nano offset
  else none

/-- A run of at least one and at most `most` digits, blanks before it skipped. -/
def readShort? (most : Nat) (text : List Char) : Option (Nat × List Char) :=
  let text := Text.trimStart text
  let digits := (text.take most).takeWhile Char.isDigit
  if digits.isEmpty then none else some (digitsValue digits, text.drop digits.length)

/-- A year: one to four digits, or a sign and any number of digits. -/
def readYear? (text : List Char) : Option (Int × List Char) :=
  match Text.trimStart text with
  | '-' :: rest => (signed rest).map fun (n, rest) => (-n, rest)
  | '+' :: rest => signed rest
  | rest => (readShort? 4 rest).map fun (n, rest) => (n, rest)
where
  signed (rest : List Char) : Option (Int × List Char) :=
    let digits := rest.takeWhile Char.isDigit
    if digits.isEmpty then none else some (digitsValue digits, rest.dropWhile Char.isDigit)

/-- Read a whole text as a date, `YYYY-MM-DD` with zeros that may be left out. -/
def readPlainDate? (text : List Char) : Option Instant := do
  let (year, rest) ← readYear? text
  let rest ← readChar? '-' rest
  let (month, rest) ← readShort? 2 rest
  let rest ← readChar? '-' rest
  let (day, rest) ← readShort? 2 rest
  let date ← Date.of? year month day
  if rest.isEmpty then Instant.ofClock? date 0 0 0 0 0 else none

/-- The instant a text denotes, blanks around it aside: a timestamp, or else a
date. -/
def readInstant? (s : String) : Option Instant :=
  let text := Text.trim s.toList
  readTimestamp? text <|> readPlainDate? text

end Criteria.Calendar
