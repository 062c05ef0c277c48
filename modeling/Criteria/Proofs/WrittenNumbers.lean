/-
# Criteria.Proofs.WrittenNumbers -- numerals and the numbers that they denote

A numeral is written with a sign, digits with a point among them or none, and an exponent
(`WrittenNumber`).  `Numeral.read?` reads exactly these texts (`read?_eq_some_iff`): each part
ends where the next one starts, and nothing may be left over.

The number of a numeral is a rational number, whatever its size (`WrittenNumber.value`).  What is
read of it, digits without the point and a scale, denotes the same number (`value_numeral`).
-/
import Criteria.Decimal.Numeral
import Mathlib.Algebra.Order.Field.Rat
import Mathlib.Data.List.Induction
import Mathlib.Data.List.TakeWhile
import Mathlib.Tactic.FieldSimp
import Mathlib.Tactic.NormNum

namespace Criteria.Decimal

set_option autoImplicit false

/-! ## Numerals as they are written -/

/-- A run of digits, which may be empty. -/
structure Digits where
  chars : List Char
  all : ∀ c ∈ chars, c.isDigit = true

namespace Digits

def none : Digits :=
  ⟨[], List.forall_mem_nil _⟩

def number (d : Digits) : Nat :=
  digitsValue d.chars

end Digits

/-- A sign as it is written, or none. -/
inductive Sign where
  | none
  | plus
  | minus

namespace Sign

def chars : Sign → List Char
  | none => []
  | plus => ['+']
  | minus => ['-']

def isMinus : Sign → Bool
  | minus => true
  | _ => false

end Sign

/-- An exponent behind its mark. -/
structure Exponent where
  mark : Char
  sign : Sign
  digits : Digits
  isMark : mark = 'e' ∨ mark = 'E'
  some_ : digits.chars ≠ []

namespace Exponent

def chars (x : Exponent) : List Char :=
  x.mark :: (x.sign.chars ++ x.digits.chars)

def value (x : Exponent) : Int :=
  if x.sign.isMinus then -(x.digits.number : Int) else x.digits.number

end Exponent

/-- A finite number as it is written: at least one digit before the point or behind it. -/
structure WrittenNumber where
  sign : Sign
  whole : Digits
  /-- the digits behind the point, if there is a point -/
  fraction : Option Digits
  exponent : Option Exponent
  some_ : whole.chars ++ (fraction.getD .none).chars ≠ []

/-- The number of a sign and a size. -/
def signed (negative : Bool) (size : ℚ) : ℚ :=
  if negative then -size else size

theorem abs_signed (negative : Bool) (size : ℚ) : |signed negative size| = |size| := by
  cases negative
  · rfl
  · exact abs_neg size

def fractionChars : Option Digits → List Char
  | none => []
  | some d => '.' :: d.chars

def exponentChars : Option Exponent → List Char
  | none => []
  | some x => x.chars

namespace WrittenNumber

def chars (n : WrittenNumber) : List Char :=
  n.sign.chars ++ (n.whole.chars ++ (fractionChars n.fraction ++ exponentChars n.exponent))

/-- The digits behind the point. -/
def places (n : WrittenNumber) : Digits :=
  n.fraction.getD .none

/-- The power of ten. -/
def power (n : WrittenNumber) : Int :=
  (n.exponent.map Exponent.value).getD 0

/-- **The number that is written**, exactly. -/
def value (n : WrittenNumber) : ℚ :=
  signed n.sign.isMinus
    ((n.whole.number + n.places.number / 10 ^ n.places.chars.length) * 10 ^ n.power)

/-- What is read of it. -/
def numeral (n : WrittenNumber) : Numeral :=
  ⟨n.sign.isMinus, n.whole.chars ++ n.places.chars, n.places.chars.length, n.power⟩

end WrittenNumber

/-! ## Reading part after part

For each part there is the reader's answer on a text that starts with it, and the part that any
text the reader accepts starts with. -/

theorem sign_chars_append (s : Sign) {rest : List Char}
    (unsigned : ∀ c ∈ rest.head?, c ≠ '-' ∧ c ≠ '+') :
    Numeral.sign (s.chars ++ rest) = (s.isMinus, rest) := by
  cases s with
  | none =>
      rw [Sign.chars, List.nil_append, Numeral.sign.eq_def]
      split
      · exact absurd rfl (unsigned '-' rfl).1
      · exact absurd rfl (unsigned '+' rfl).2
      · rfl
  | plus => rfl
  | minus => rfl

theorem exists_sign (text : List Char) :
    ∃ s : Sign, text = s.chars ++ (Numeral.sign text).2 ∧ (Numeral.sign text).1 = s.isMinus := by
  unfold Numeral.sign
  split
  · exact ⟨.minus, rfl, rfl⟩
  · exact ⟨.plus, rfl, rfl⟩
  · exact ⟨.none, rfl, rfl⟩

/-- A run of digits starts without a sign. -/
theorem Digits.unsigned (d : Digits) : ∀ c ∈ d.chars.head?, c ≠ '-' ∧ c ≠ '+' := by
  intro c first
  have digit := d.all c (List.mem_of_mem_head? first)
  constructor <;> rintro rfl <;> cases digit

theorem exponent?_chars (x : Exponent) : Numeral.exponent? x.chars = some x.value := by
  have mark : (x.mark = 'e' || x.mark = 'E') = true := by simpa using x.isMark
  have whole : (x.digits.chars.isEmpty || !x.digits.chars.all Char.isDigit) = false := by
    simpa [x.some_] using x.digits.all
  rw [Exponent.chars, Numeral.exponent?, if_pos mark, sign_chars_append _ x.digits.unsigned]
  simp only [whole, Bool.false_eq_true, if_false]
  rfl

theorem exponent?_exponentChars (x : Option Exponent) :
    Numeral.exponent? (exponentChars x) = some ((x.map Exponent.value).getD 0) := by
  cases x with
  | none => rfl
  | some x => exact exponent?_chars x

theorem exists_exponent {text : List Char} {e : Int} (read : Numeral.exponent? text = some e) :
    ∃ x : Option Exponent, text = exponentChars x ∧ e = (x.map Exponent.value).getD 0 := by
  cases text with
  | nil =>
      cases read
      exact ⟨none, rfl, rfl⟩
  | cons c rest =>
      obtain ⟨s, text, minus⟩ := exists_sign rest
      rw [Numeral.exponent?] at read
      split at read
      · rename_i mark
        simp only at read
        split at read
        · cases read
        · rename_i whole
          simp only [Bool.or_eq_true, List.isEmpty_iff, Bool.not_eq_true', not_or,
            Bool.not_eq_false, List.all_eq_true] at whole
          refine ⟨some ⟨c, s, ⟨_, whole.2⟩, by simpa using mark, whole.1⟩, ?_, ?_⟩
          · rw [exponentChars, Exponent.chars, ← text]
          · rw [minus] at read
            exact (Option.some.inj read).symm
      · cases read

theorem fraction_fractionChars_append (d : Option Digits) {rest : List Char}
    (stop : ∀ c ∈ rest.head?, c.isDigit = false ∧ c ≠ '.') :
    Numeral.fraction (fractionChars d ++ rest) = ((d.getD .none).chars, rest) := by
  cases d with
  | none =>
      rw [fractionChars, List.nil_append, Numeral.fraction.eq_def]
      split
      · exact absurd rfl (stop '.' rfl).2
      · rfl
  | some d =>
      have digit : ∀ c ∈ rest.head?, c.isDigit = false := fun c first => (stop c first).1
      rw [fractionChars, List.cons_append, Numeral.fraction, takeWhile_isDigit_append d.all digit,
        dropWhile_isDigit_append d.all digit]
      rfl

theorem exists_fraction (text : List Char) :
    ∃ d : Option Digits, text = fractionChars d ++ (Numeral.fraction text).2 ∧
      (Numeral.fraction text).1 = (d.getD .none).chars := by
  unfold Numeral.fraction
  split
  · rename_i rest
    refine ⟨some ⟨rest.takeWhile Char.isDigit, fun c => List.mem_takeWhile_imp⟩, ?_, rfl⟩
    rw [fractionChars, List.cons_append, List.takeWhile_append_dropWhile]
  · exact ⟨none, rfl, rfl⟩

/-! ## Where the parts end -/

theorem exponentChars_stop (x : Option Exponent) :
    ∀ c ∈ (exponentChars x).head?, c.isDigit = false ∧ c ≠ '.' := by
  cases x with
  | none => nofun
  | some x =>
      rintro c ⟨⟩
      rcases x.isMark with mark | mark <;> rw [mark] <;> decide

namespace WrittenNumber

theorem whole_stop (n : WrittenNumber) :
    ∀ c ∈ (fractionChars n.fraction ++ exponentChars n.exponent).head?, c.isDigit = false := by
  cases n.fraction with
  | none => exact fun c first => (exponentChars_stop n.exponent c first).1
  | some d =>
      rintro c ⟨⟩
      rfl

/-- There is no second sign: a digit comes first, or the point. -/
theorem sign_stop (n : WrittenNumber) :
    ∀ c ∈ (n.whole.chars ++ (fractionChars n.fraction ++ exponentChars n.exponent)).head?,
      c ≠ '-' ∧ c ≠ '+' := by
  have some_ := n.some_
  have unsigned := n.whole.unsigned
  cases whole : n.whole.chars with
  | nil =>
      rw [whole] at some_
      cases fraction : n.fraction with
      | none =>
          rw [fraction] at some_
          exact absurd rfl some_
      | some d =>
          rintro c ⟨⟩
          decide
  | cons digit rest =>
      rw [whole] at unsigned
      exact unsigned

end WrittenNumber

/-! ## Reading the whole -/

/-- The parts of a numeral, one after the other. -/
theorem read?_eq (text : List Char) :
    Numeral.read? text =
      (let (negative, unsigned) := Numeral.sign text
      let whole := unsigned.takeWhile Char.isDigit
      let (after, tail) := Numeral.fraction (unsigned.dropWhile Char.isDigit)
      if whole ++ after = [] then none
      else (Numeral.exponent? tail).map fun exponent =>
        ⟨negative, whole ++ after, after.length, exponent⟩) := by
  simp only [Numeral.read?, Bool.and_eq_true, List.isEmpty_iff, List.append_eq_nil_iff]

theorem read?_chars (n : WrittenNumber) : Numeral.read? n.chars = some n.numeral := by
  rw [read?_eq, WrittenNumber.chars, sign_chars_append _ n.sign_stop]
  simp only [takeWhile_isDigit_append n.whole.all n.whole_stop,
    dropWhile_isDigit_append n.whole.all n.whole_stop,
    fraction_fractionChars_append n.fraction (exponentChars_stop n.exponent),
    exponent?_exponentChars, if_neg n.some_]
  rfl

theorem exists_of_read? {text : List Char} {m : Numeral} (read : Numeral.read? text = some m) :
    ∃ n : WrittenNumber, text = n.chars ∧ m = n.numeral := by
  obtain ⟨sign, signed, minus⟩ := exists_sign text
  rw [read?_eq] at read
  simp only at read
  generalize (Numeral.sign text).2 = unsigned at signed read
  obtain ⟨fraction, point, places⟩ := exists_fraction (unsigned.dropWhile Char.isDigit)
  rw [places] at read
  split at read
  · cases read
  · rename_i some_
    obtain ⟨e, exponent, rfl⟩ := Option.map_eq_some_iff.mp read
    obtain ⟨x, tail, rfl⟩ := exists_exponent exponent
    refine ⟨⟨sign, ⟨unsigned.takeWhile Char.isDigit, fun c => List.mem_takeWhile_imp⟩, fraction, x,
      some_⟩, ?_, ?_⟩
    · rw [WrittenNumber.chars, ← tail, ← point, List.takeWhile_append_dropWhile]
      exact signed
    · rw [minus]
      rfl

/-- **The texts that are read are the written numbers.** -/
theorem read?_eq_some_iff {text : List Char} {m : Numeral} :
    Numeral.read? text = some m ↔ ∃ n : WrittenNumber, text = n.chars ∧ m = n.numeral := by
  constructor
  · exact exists_of_read?
  · rintro ⟨n, rfl, rfl⟩
    exact read?_chars n

/-! ## Numbers -/

theorem digitsValue_append (front back : List Char) :
    digitsValue (front ++ back) = digitsValue front * 10 ^ back.length + digitsValue back := by
  simp only [digitsValue, ← Nat.ofDigitChars_eq_foldl]
  rw [Nat.ofDigitChars_append, Nat.ofDigitChars_eq_ofDigitChars_zero, Nat.mul_comm]

/-- The number that was read. -/
def Numeral.value (m : Numeral) : ℚ :=
  signed m.negative (digitsValue m.digits * 10 ^ m.scale)

/-- **Reading keeps the number.** -/
theorem value_numeral (n : WrittenNumber) : n.numeral.value = n.value := by
  have ten : (10 : ℚ) ≠ 0 := by norm_num
  refine congrArg (signed n.sign.isMinus) ?_
  simp only [WrittenNumber.numeral, Numeral.scale, digitsValue_append, zpow_sub₀ ten, zpow_natCast,
    Digits.number]
  push_cast
  field_simp

theorem digitsValue_lt {digits : List Char} (all : ∀ c ∈ digits, c.isDigit = true) :
    digitsValue digits < 10 ^ digits.length := by
  induction digits using List.reverseRecOn with
  | nil => decide
  | append_singleton digits c ih =>
      have front := ih fun d member => all d (List.mem_append_left _ member)
      have digit : c.toNat ≤ 57 := by
        have isDigit := all c (by simp)
        exact of_decide_eq_true ((Bool.and_eq_true _ _).mp isDigit).2
      have last : digitsValue [c] = c.toNat - 48 := by simp [digitsValue]
      have longer : 10 ^ (digits ++ [c]).length = 10 ^ digits.length * 10 := by
        rw [List.length_append, List.length_singleton, Nat.pow_succ]
      have value := digitsValue_append digits [c]
      rw [List.length_singleton, last] at value
      omega

end Criteria.Decimal
