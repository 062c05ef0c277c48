/-
# Criteria.Json.Number -- the value of a JSON number

An integer of 64 bits stays an integer; `-0` and every other number is a double.
The double is made in two steps: the leading digits that fit into 64 bits are
rounded to a double, and that is multiplied or divided by a power of ten.  Both
steps round, so the result may differ from the nearest double in its last bit.
-/
import Criteria.Decimal.Numeral
import Criteria.Json.Basic

namespace Criteria.Json

set_option autoImplicit false

open Decimal (digitsValue)

/-- A JSON number as written. -/
structure Numeral where
  negative : Bool
  whole : List Char
  fraction : Option (List Char)
  exponent : Option Int
  deriving DecidableEq, Repr

/-- Put digits behind a number for as long as it stays within 64 bits; the number
and the count of digits taken. -/
def absorb : Nat → List Char → Nat × Nat
  | n, [] => (n, 0)
  | n, c :: rest =>
      let next := 10 * n + (c.toNat - '0'.toNat)
      if next < Nat.pow 2 64 then
        let (m, taken) := absorb next rest
        (m, taken + 1)
      else (n, 0)

def powerOfTen (n : Nat) : Float :=
  Float.ofScientific 1 false n

/-- Divide by `10 ^ n`, by at most `10 ^ 308` at a time. -/
def divideByPower (x : Float) (n : Nat) : Float :=
  if n ≤ 308 then x / powerOfTen n
  else if x == 0.0 then x
  else divideByPower (x / powerOfTen 308) (n - 308)
termination_by n

/-- Multiply by `10 ^ exponent`; `none` when the result is not finite. -/
def scaled (x : Float) (exponent : Int) : Option Float :=
  if exponent < 0 then some (divideByPower x (-exponent).toNat)
  else if exponent ≤ 308 then
    let y := x * powerOfTen exponent.toNat
    if y.isInf then none else some y
  else if x == 0.0 then some x
  else none

/-- The double a numeral stands for; `none` when it is too large. -/
def Numeral.toFloat? (n : Numeral) : Option Float :=
  let (significand, taken) := absorb 0 n.whole
  let (significand, takenAfter) := absorb significand (n.fraction.getD [])
  let exponent : Int := (n.whole.length - taken : Nat) - (takenAfter : Int) + n.exponent.getD 0
  (scaled (Float.ofNat significand) exponent).map fun x => if n.negative then -x else x

/-- The value of a numeral; `none` when it is too large for a double. -/
def Numeral.value? (n : Numeral) : Option Json :=
  let size := digitsValue n.whole
  match n.fraction, n.exponent with
  | none, none =>
      if n.negative then
        if size ≠ 0 ∧ size ≤ Nat.pow 2 63 then some (.integer (-size)) else n.toFloat?.map .float
      else if size < Nat.pow 2 64 then some (.integer size)
      else n.toFloat?.map .float
  | _, _ => n.toFloat?.map .float

end Criteria.Json
