/-
# Criteria.Decimal.Binary64 -- a double as a sign, an integer and a power of two

Everything that reads digits or an integer off a double goes through
`Binary64.ofFloat`: a finite double is exactly
`(-1)^negative * significand * 2^exponent`.  `truncate` is the integer next to it
toward zero.
-/
namespace Criteria.Decimal

set_option autoImplicit false

/-- A double, taken apart.  `finite` carries the exact value. -/
inductive Binary64 where
  | notANumber
  | infinite (negative : Bool)
  | finite (negative : Bool) (significand : Nat) (exponent : Int)
  deriving DecidableEq, Repr

namespace Binary64

/-- Take the 64 bits of a double apart: a sign bit, eleven bits of exponent and
52 bits of fraction.  The least exponent has no hidden bit. -/
def ofBits (bits : Nat) : Binary64 :=
  let negative := bits / Nat.pow 2 63 % 2 == 1
  let scale : Nat := bits / Nat.pow 2 52 % Nat.pow 2 11
  let fraction := bits % Nat.pow 2 52
  if scale = 2047 then
    if fraction = 0 then .infinite negative else .notANumber
  else if scale = 0 then .finite negative fraction (-1074)
  else .finite negative (Nat.pow 2 52 + fraction) ((scale : Int) - 1075)

def ofFloat (x : Float) : Binary64 :=
  ofBits x.toBits.toNat

/-- The integer part of a finite double, without its fraction. -/
def truncate : Binary64 → Option Int
  | .finite negative significand exponent =>
      let size : Nat := significand * Nat.pow 2 exponent.toNat / Nat.pow 2 (-exponent).toNat
      some (if negative then -(size : Int) else size)
  | _ => none

end Binary64

end Criteria.Decimal
