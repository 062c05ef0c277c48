/-
# Criteria.Decimal.Numeral -- written numbers and what they round to

A numeral is a sign, digits with at most one point among them, and an exponent.
`Numeral.read?` reads one off a whole text; `roundsToZero` and `overflows` say
when the double nearest to the written number is zero, or too large to be
finite.  Both are decided in natural numbers, with the exponent first compared
to the count of digits so that no power larger than the answer needs is formed.
-/
namespace Criteria.Decimal

set_option autoImplicit false

/-- The number a run of decimal digits denotes. -/
def digitsValue (digits : List Char) : Nat :=
  digits.foldl (fun n c => 10 * n + (c.toNat - '0'.toNat)) 0

/-! ## Runs of digits -/

section

variable {digits rest : List Char}

theorem takeWhile_isDigit_append (all : ∀ c ∈ digits, c.isDigit = true)
    (stop : ∀ c ∈ rest.head?, c.isDigit = false) :
    (digits ++ rest).takeWhile Char.isDigit = digits := by
  rw [List.takeWhile_append_of_pos all]
  cases rest with
  | nil => simp
  | cons c rest => simp [stop c rfl]

theorem dropWhile_isDigit_append (all : ∀ c ∈ digits, c.isDigit = true)
    (stop : ∀ c ∈ rest.head?, c.isDigit = false) :
    (digits ++ rest).dropWhile Char.isDigit = rest := by
  rw [List.dropWhile_append_of_pos all]
  cases rest with
  | nil => rfl
  | cons c rest => simp [stop c rfl]

end

/-! ## Numerals -/

/-- A written number: `digits`, the last `places` of them after the point, times
ten to the `exponent`. -/
structure Numeral where
  negative : Bool
  digits : List Char
  places : Nat
  exponent : Int
  deriving DecidableEq, Repr

namespace Numeral

/-- An optional sign: whether it is a minus, and the rest. -/
def sign : List Char → Bool × List Char
  | '-' :: rest => (true, rest)
  | '+' :: rest => (false, rest)
  | rest => (false, rest)

/-- The exponent at the end of a numeral: nothing, or `e` with a signed run of
digits and nothing behind it. -/
def exponent? : List Char → Option Int
  | [] => some 0
  | c :: rest =>
      if c = 'e' || c = 'E' then
        let (negative, digits) := sign rest
        if digits.isEmpty || !digits.all Char.isDigit then none
        else
          let size : Int := digitsValue digits
          some (if negative then -size else size)
      else none

/-- The digits after the point, and what follows them. -/
def fraction : List Char → List Char × List Char
  | '.' :: rest => (rest.takeWhile Char.isDigit, rest.dropWhile Char.isDigit)
  | rest => ([], rest)

/-- Read a whole text as a numeral.  At least one digit has to stand before or
after the point. -/
def read? (text : List Char) : Option Numeral :=
  let (negative, unsigned) := sign text
  let whole := unsigned.takeWhile Char.isDigit
  let (after, tail) := fraction (unsigned.dropWhile Char.isDigit)
  if whole.isEmpty && after.isEmpty then none
  else (exponent? tail).map fun exponent => ⟨negative, whole ++ after, after.length, exponent⟩

/-- The power of ten that the digits, read as an integer, are to be multiplied by. -/
def scale (n : Numeral) : Int :=
  n.exponent - n.places

/-- Whether the number is exactly zero. -/
def isZero (n : Numeral) : Bool :=
  digitsValue n.digits == 0

/-- Whether the nearest double is zero: the number is at most half of the least
positive double, `2 ^ (-1075)`. -/
def roundsToZero (n : Numeral) : Bool :=
  let shift := (-n.scale).toNat
  n.isZero || (n.scale < 0 && (n.digits.length + 324 ≤ shift ||
    digitsValue n.digits * Nat.pow 2 1075 ≤ Nat.pow 10 shift))

/-- Whether the number is too large for a finite double: it reaches the middle
between the greatest double and the next power of two. -/
def overflows (n : Numeral) : Bool :=
  let greatest := Nat.pow 2 1024 - Nat.pow 2 970
  !n.isZero && (310 ≤ n.scale ||
    (0 ≤ n.scale && greatest ≤ digitsValue n.digits * Nat.pow 10 n.scale.toNat) ||
    (n.scale < 0 && (-n.scale).toNat ≤ n.digits.length &&
      greatest * Nat.pow 10 (-n.scale).toNat ≤ digitsValue n.digits))

end Numeral

/-- Whether a text is a numeral whose double is zero; blanks around it do not
count. -/
def denotesZero (trimmed : List Char) : Bool :=
  (Numeral.read? trimmed).any Numeral.roundsToZero

end Criteria.Decimal
