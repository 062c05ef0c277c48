/-
# Criteria.Decimal.Shortest -- the fewest digits that read back

The text of a double is the shortest decimal among those that round to it, and
of two equally short ones the nearer.  `shortest` finds it by looking at one
decimal grid after another, coarsest first: if any point of a grid rounds to the
double, so does one of the two grid points around it.  All comparisons are of
natural numbers; nothing is rounded on the way.
-/
namespace Criteria.Decimal

set_option autoImplicit false

/-- The decimal number `digits * 10 ^ exponent`. -/
structure Scaled where
  digits : Nat
  exponent : Int
  deriving DecidableEq, Repr

/-- Which of two equally near decimals is taken. -/
inductive Tie where
  | up
  | even
  deriving DecidableEq, Repr

/-- A positive double `significand * 2 ^ exponent` with its rounding interval on
one decimal grid: all four fields count the same unit, one quarter of the
double's own spacing times whatever makes the grid's step an integer. -/
structure Grid where
  low : Nat
  value : Nat
  high : Nat
  step : Nat
  deriving DecidableEq, Repr

namespace Grid

/-- The grid of step `10 ^ place` around `significand * 2 ^ exponent`.  Below a
power of two the doubles lie twice as close. -/
def around (significand : Nat) (exponent place : Int) : Grid :=
  let lowerGap := if significand = Nat.pow 2 52 ∧ exponent > -1074 then 1 else 2
  let scale := Nat.pow 2 (exponent - 2).toNat * Nat.pow 10 (-place).toNat
  { low := (4 * significand - lowerGap) * scale
    value := 4 * significand * scale
    high := (4 * significand + 2) * scale
    step := Nat.pow 10 place.toNat * Nat.pow 2 (2 - exponent).toNat }

/-- Whether the grid point `n` rounds to the double.  The ends of the interval do
exactly when the significand is even. -/
def holds (g : Grid) (closed : Bool) (n : Nat) : Bool :=
  let x := n * g.step
  if closed then g.low ≤ x && x ≤ g.high else g.low < x && x < g.high

/-- The grid point that rounds to the double and is nearest to it. -/
def nearest? (g : Grid) (closed : Bool) (tie : Tie) : Option Nat :=
  let below := g.value / g.step
  let excess := g.value % g.step
  if excess = 0 then some below
  else
    match g.holds closed below, g.holds closed (below + 1) with
    | true, false => some below
    | false, true => some (below + 1)
    | false, false => none
    | true, true =>
        if 2 * excess < g.step then some below
        else if g.step < 2 * excess then some (below + 1)
        else if tie = .even ∧ below % 2 = 0 then some below
        else some (below + 1)

end Grid

/-- A place above the leading digit of `significand * 2 ^ exponent`: one decimal
digit for every three binary ones is too many. -/
def topPlace (significand : Nat) (exponent : Int) : Int :=
  (Nat.log2 significand + exponent) * 30103 / 100000 + 1

/-- The shortest decimal that rounds to the positive double
`significand * 2 ^ exponent`; seventeen digits always do. -/
def shortest (tie : Tie) (significand : Nat) (exponent : Int) : Scaled :=
  let top := topPlace significand exponent
  let places := (List.range 24).map fun (n : Nat) => top - n
  let hit := places.findSome? fun place =>
    ((Grid.around significand exponent place).nearest? (significand % 2 == 0) tie).map
      fun digits => Scaled.mk digits place
  hit.getD ⟨0, 0⟩

end Criteria.Decimal
