/-
# Criteria.Decimal.Layout -- how the digits of a double are written

Two layouts are in use and both are values of `Layout`: `Layout.plain`, the text
of a number among other text, never has an exponent and never a needless `.0`;
`Layout.json` always shows that the number is no integer, by a point or by an
exponent.
-/
import Criteria.Decimal.Binary64
import Criteria.Decimal.Shortest

namespace Criteria.Decimal

set_option autoImplicit false

/-- What a written double looks like.  An exponent is written when the leading
digit's place is outside `least .. greatest`; `none` never writes one. -/
structure Layout where
  positional : Option (Int × Int)
  /-- whether an integral number ends in `.0` -/
  pointed : Bool
  tie : Tie
  notANumber : String
  /-- the text of an infinite number, its sign apart -/
  infinite : String
  signedInfinite : Bool

/-- Numbers among other text: all digits, no exponent. -/
def Layout.plain : Layout :=
  ⟨none, false, .up, "NaN", "inf", true⟩

/-- Numbers in JSON text: an exponent from `1e16` on and below `0.00001`, and no
spelling for what is not finite. -/
def Layout.json : Layout :=
  ⟨some (-5, 15), true, .even, "null", "null", false⟩

def digitChars (n : Nat) : List Char :=
  Nat.toDigits 10 n

/-- All digits in their places, with a point before the fraction. -/
def positionalChars (digits : List Char) (place : Int) (pointed : Bool) : List Char :=
  if 0 ≤ place then
    digits ++ List.replicate place.toNat '0' ++ (if pointed then ['.', '0'] else [])
  else
    let fraction := (-place).toNat
    if fraction < digits.length then
      digits.take (digits.length - fraction) ++ '.' :: digits.drop (digits.length - fraction)
    else '0' :: '.' :: List.replicate (fraction - digits.length) '0' ++ digits

/-- One digit, the others after a point, and a signed exponent. -/
def scientificChars (digits : List Char) (leading : Int) : List Char :=
  let mantissa :=
    match digits with
    | first :: second :: rest => first :: '.' :: second :: rest
    | _ => digits
  let size := digitChars leading.natAbs
  mantissa ++ 'e' :: (if 0 ≤ leading then '+' :: size else '-' :: size)

/-- The unsigned text of a decimal. -/
def Layout.unsigned (layout : Layout) (d : Scaled) : List Char :=
  let digits := digitChars d.digits
  let leading : Int := d.exponent + digits.length - 1
  match layout.positional with
  | some (least, greatest) =>
      if least ≤ leading ∧ leading ≤ greatest then
        positionalChars digits d.exponent layout.pointed
      else scientificChars digits leading
  | none => positionalChars digits d.exponent layout.pointed

/-- The text of a double. -/
def Layout.chars (layout : Layout) : Binary64 → List Char
  | .notANumber => layout.notANumber.toList
  | .infinite negative =>
      (if negative && layout.signedInfinite then ['-'] else []) ++ layout.infinite.toList
  | .finite negative significand exponent =>
      (if negative then ['-'] else []) ++
        if significand = 0 then positionalChars ['0'] 0 layout.pointed
        else layout.unsigned (shortest layout.tie significand exponent)

/-- The text of a double in the given layout. -/
def Layout.text (layout : Layout) (x : Float) : String :=
  .ofList (layout.chars (Binary64.ofFloat x))

end Criteria.Decimal
