/-
# Criteria.Json.Lexeme -- the marks and scalars of a JSON text

`lexemes` cuts a text into lexemes.  Where the text cannot be cut any further
the list ends in a `bad` or `badString` lexeme.

Values that nobody asks for are passed over with fewer demands than values that
are read: a lone surrogate in a string or a number too large for a double is
then no fault.  So a `number` or `string` lexeme carries its value or the fault
of reading it, and the text goes on behind it either way; and a bad lexeme
says apart which fault reading (`strict`) and which passing over (`lax`) meets.
-/
import Criteria.Json.Fault
import Criteria.Json.Number

namespace Criteria.Json

set_option autoImplicit false

inductive Lexeme where
  | openArray
  | closeArray
  | openObject
  | closeObject
  | comma
  | colon
  | null
  | bool (b : Bool)
  /-- a number: `integer` or `float` -/
  | number (value : Except Fault Json)
  | string (text : Except Fault String)
  | bad (strict lax : Fault)
  /-- a `bad` lexeme that starts with a quote -/
  | badString (strict lax : Fault)

/-! ## Strings -/

/-- A string behind its opening quote: what it denotes, and what follows its
closing quote. -/
structure Quoted where
  text : Except Fault (List Char)
  rest : Except Fault (List Char)

namespace Quoted

def broken (f : Fault) : Quoted :=
  ⟨.error f, .error f⟩

def cons (c : Char) (q : Quoted) : Quoted :=
  ⟨q.text.map (c :: ·), q.rest⟩

/-- The same end, with a fault met before. -/
def spoiled (f : Fault) (q : Quoted) : Quoted :=
  ⟨.error f, q.rest⟩

end Quoted

def hexValue? (c : Char) : Option Nat :=
  if '0' ≤ c ∧ c ≤ '9' then some (c.toNat - '0'.toNat)
  else if 'a' ≤ c ∧ c ≤ 'f' then some (c.toNat - 'a'.toNat + 10)
  else if 'A' ≤ c ∧ c ≤ 'F' then some (c.toNat - 'A'.toNat + 10)
  else none

/-- The code unit of four hexadecimal digits. -/
def codeUnit? (a b c d : Char) : Option Nat := do
  return (((← hexValue? a) * 16 + (← hexValue? b)) * 16 + (← hexValue? c)) * 16 + (← hexValue? d)

/-- What is wrong when no four hexadecimal digits come: the text ends within four
bytes, or something else stands there. -/
def codeUnitFault (text : List Char) : Fault :=
  if (text.map Char.utf8Size).foldl (· + ·) 0 < 4 then .truncated else .malformed

/-- The character that a backslash and one letter denote. -/
def unescape? (c : Char) : Option Char :=
  if c = '"' ∨ c = '\\' ∨ c = '/' then some c
  else if c = 'b' then some '\x08'
  else if c = 'f' then some '\x0c'
  else if c = 'n' then some '\n'
  else if c = 'r' then some '\r'
  else if c = 't' then some '\t'
  else none

/-- The character of two surrogates. -/
def pairChar (high low : Nat) : Char :=
  .ofNat ((high - 0xD800) * 0x400 + (low - 0xDC00) + 0x10000)

/-- The halves of the code units that stand for characters in pairs. -/
inductive Surrogate where
  | high
  | low
  deriving DecidableEq

def surrogate? (unit : Nat) : Option Surrogate :=
  if 0xD800 ≤ unit ∧ unit < 0xDC00 then some .high
  else if 0xDC00 ≤ unit ∧ unit < 0xE000 then some .low
  else none

/-- Read a string behind its opening quote, or behind the first half of a pair,
`pending`.  Its second half has to follow at once. -/
def quotedText (pending : Option Nat) : List Char → Quoted
  | [] => .broken .truncated
  | '"' :: rest => alone ⟨.ok [], .ok rest⟩
  | '\\' :: 'u' :: a :: b :: c :: d :: rest =>
      match codeUnit? a b c d with
      | none => .broken (codeUnitFault (a :: b :: c :: d :: rest))
      | some unit =>
          match pending, surrogate? unit with
          | none, none => (quotedText none rest).cons (.ofNat unit)
          | none, some .high => quotedText (some unit) rest
          | some high, some .low => (quotedText none rest).cons (pairChar high unit)
          | _, _ => (quotedText none rest).spoiled .malformed
  | '\\' :: 'u' :: rest => .broken (codeUnitFault rest)
  | '\\' :: c :: rest =>
      match unescape? c with
      | some plain => alone ((quotedText none rest).cons plain)
      | none => .broken .malformed
  | ['\\'] => .broken .truncated
  | c :: rest =>
      if c.toNat < 32 then .broken .malformed else alone ((quotedText none rest).cons c)
where
  alone (q : Quoted) : Quoted :=
    if pending.isSome then q.spoiled .malformed else q

/-! ## Numbers -/

/-- Digits at the front of a text, and what follows them. -/
def spanDigits (text : List Char) : List Char × List Char :=
  (text.takeWhile Char.isDigit, text.dropWhile Char.isDigit)

/-- A fault where a digit had to come: to a reader a text that ends there is
truncated, but one who passes over sees a malformed number. -/
def noDigit (text : List Char) : Lexeme :=
  .bad (if text.isEmpty then .truncated else .malformed) .malformed

def numberLexeme (n : Numeral) : Lexeme :=
  .number (match n.value? with | some value => .ok value | none => .error .malformed)

/-- The exponent of a number, its fraction read, and what follows the number. -/
def exponentPart (negative : Bool) (whole : List Char) (fraction : Option (List Char))
    (text : List Char) : Lexeme × List Char :=
  match text with
  | c :: signed =>
      if c = 'e' ∨ c = 'E' then
        let (minus, unsigned) := Decimal.Numeral.sign signed
        let (digits, rest) := spanDigits unsigned
        if digits.isEmpty then (noDigit unsigned, [])
        else
          let size : Int := Decimal.digitsValue digits
          (numberLexeme ⟨negative, whole, fraction, some (if minus then -size else size)⟩, rest)
      else (numberLexeme ⟨negative, whole, fraction, none⟩, text)
  | [] => (numberLexeme ⟨negative, whole, fraction, none⟩, text)

/-- The fraction and the exponent of a number, and what follows the number. -/
def fractionPart (negative : Bool) (whole text : List Char) : Lexeme × List Char :=
  match text with
  | '.' :: after =>
      let (digits, rest) := spanDigits after
      if digits.isEmpty then (noDigit after, [])
      else exponentPart negative whole (some digits) rest
  | _ => exponentPart negative whole none text

/-- A number behind its sign: the lexeme, and what follows it.  Only zero itself
starts with a zero. -/
def numberPart (negative : Bool) (text : List Char) : Lexeme × List Char :=
  let (whole, rest) := spanDigits text
  match whole with
  | [] => (noDigit text, [])
  | '0' :: _ :: _ => (.bad .malformed .malformed, [])
  | _ => fractionPart negative whole rest

/-! ## The text -/

/-- What follows a word, when the text starts with the word. -/
def afterWord : List Char → List Char → Except Fault (List Char)
  | [], text => .ok text
  | _ :: _, [] => .error .truncated
  | c :: word, d :: text => if c = d then afterWord word text else .error .malformed

def isSpace (c : Char) : Bool :=
  c = ' ' || c = '\n' || c = '\t' || c = '\r'

/-- A word that stands for a scalar, and what follows it. -/
def wordPart (scalar : Lexeme) (word text : List Char) : Lexeme × List Char :=
  match afterWord word text with
  | .ok rest => (scalar, rest)
  | .error f => (.bad f f, [])

/-- A string behind its opening quote, and what follows it. -/
def stringPart (text : List Char) : Lexeme × List Char :=
  let q := quotedText none text
  match q.rest with
  | .ok rest => (.string (q.text.map String.ofList), rest)
  | .error lax =>
      match q.text with
      | .error strict => (.badString strict lax, [])
      | .ok _ => (.badString lax lax, [])

/-- The lexeme that starts with the character `c`, which is no space, and what
follows it in `text`. -/
def lexemePart (c : Char) (text : List Char) : Lexeme × List Char :=
  if c = '[' then (.openArray, text)
  else if c = ']' then (.closeArray, text)
  else if c = '\x7b' then (.openObject, text)
  else if c = '\x7d' then (.closeObject, text)
  else if c = ',' then (.comma, text)
  else if c = ':' then (.colon, text)
  else if c = '"' then stringPart text
  else if c = 'n' then wordPart .null ['u', 'l', 'l'] text
  else if c = 't' then wordPart (.bool true) ['r', 'u', 'e'] text
  else if c = 'f' then wordPart (.bool false) ['a', 'l', 's', 'e'] text
  else if c = '-' then numberPart true text
  else if c.isDigit then numberPart false (c :: text)
  else (.bad .malformed .malformed, [])

/-! ### Every lexeme leaves less text -/

theorem spanDigits_length_le (text : List Char) : (spanDigits text).2.length ≤ text.length :=
  (List.dropWhile_suffix _).length_le

theorem sign_length_le (text : List Char) :
    (Decimal.Numeral.sign text).2.length ≤ text.length := by
  unfold Decimal.Numeral.sign
  split <;> simp

theorem exponentPart_length_le (negative : Bool) (whole : List Char)
    (fraction : Option (List Char)) (text : List Char) :
    (exponentPart negative whole fraction text).2.length ≤ text.length := by
  unfold exponentPart
  split
  · rename_i c signed
    split
    · dsimp only
      split
      · simp
      · have h₁ := spanDigits_length_le (Decimal.Numeral.sign signed).2
        have h₂ := sign_length_le signed
        simp only [List.length_cons]
        omega
    · simp
  · simp

theorem fractionPart_length_le (negative : Bool) (whole text : List Char) :
    (fractionPart negative whole text).2.length ≤ text.length := by
  unfold fractionPart
  split
  · rename_i after
    dsimp only
    split
    · simp
    · have h₁ := exponentPart_length_le negative whole (some (spanDigits after).1)
        (spanDigits after).2
      have h₂ := spanDigits_length_le after
      simp only [List.length_cons]
      omega
  · exact exponentPart_length_le ..

theorem quotedText_alone_rest (pending : Option Nat) (q : Quoted) :
    (quotedText.alone pending q).rest = q.rest := by
  unfold quotedText.alone
  split <;> rfl

theorem quotedText_length_le (pending : Option Nat) (text rest : List Char)
    (h : (quotedText pending text).rest = .ok rest) : rest.length ≤ text.length := by
  fun_induction quotedText pending text generalizing rest with
  | case1 | case3 | case8 | case10 | case11 | case12 => simp [Quoted.broken] at h
  | case2 =>
    simp only [quotedText_alone_rest, Except.ok.injEq] at h
    simp [h]
  | case4 | case5 | case6 | case7 =>
    rename_i shorter
    have := shorter rest h
    simp only [List.length_cons]
    omega
  | case9 | case13 =>
    rename_i shorter
    rw [quotedText_alone_rest] at h
    have := shorter rest h
    simp only [List.length_cons]
    omega

theorem afterWord_length_le {word text rest : List Char} (h : afterWord word text = .ok rest) :
    rest.length ≤ text.length := by
  induction word generalizing text with
  | nil => cases h; exact Nat.le_refl _
  | cons c word ih =>
    cases text with
    | nil => simp [afterWord] at h
    | cons d text =>
      simp only [afterWord] at h
      split at h
      · have := ih h
        simp only [List.length_cons]
        omega
      · cases h

theorem wordPart_length_le (scalar : Lexeme) (word text : List Char) :
    (wordPart scalar word text).2.length ≤ text.length := by
  unfold wordPart
  split
  · rename_i h
    exact afterWord_length_le h
  · simp

theorem stringPart_length_le (text : List Char) : (stringPart text).2.length ≤ text.length := by
  unfold stringPart
  dsimp only
  split
  · rename_i h
    exact quotedText_length_le none text _ h
  · split <;> simp

theorem numberPart_length_le (negative : Bool) (text : List Char) :
    (numberPart negative text).2.length ≤ text.length := by
  unfold numberPart
  dsimp only
  split
  · simp
  · simp
  · exact Nat.le_trans (fractionPart_length_le ..) (spanDigits_length_le text)

/-- A number that starts with a digit takes that digit at least. -/
theorem numberPart_cons_length_le (c : Char) (text : List Char) (digit : c.isDigit = true) :
    (numberPart false (c :: text)).2.length ≤ text.length := by
  have h : (spanDigits (c :: text)).2 = (spanDigits text).2 := by
    simp [spanDigits, List.dropWhile_cons_of_pos digit]
  unfold numberPart
  dsimp only
  split
  · simp
  · simp
  · exact Nat.le_trans (fractionPart_length_le ..) (h ▸ spanDigits_length_le text)

theorem lexemePart_length_le (c : Char) (text : List Char) :
    (lexemePart c text).2.length ≤ text.length := by
  have choice : ∀ {p : Prop} [Decidable p] {x y : Lexeme × List Char},
      (p → x.2.length ≤ text.length) → (¬p → y.2.length ≤ text.length) →
      (if p then x else y).2.length ≤ text.length := by
    intro p _ x y hx hy
    by_cases h : p
    · rw [if_pos h]; exact hx h
    · rw [if_neg h]; exact hy h
  unfold lexemePart
  iterate 6 refine choice (fun _ => Nat.le_refl _) fun _ => ?_
  refine choice (fun _ => stringPart_length_le text) fun _ => ?_
  iterate 3 refine choice (fun _ => wordPart_length_le _ _ text) fun _ => ?_
  refine choice (fun _ => numberPart_length_le true text) fun _ => ?_
  exact choice (fun digit => numberPart_cons_length_le c text digit) fun _ => Nat.zero_le _

/-- The lexemes of a text. -/
def lexemes (text : List Char) : List Lexeme :=
  match text with
  | [] => []
  | c :: rest =>
      if isSpace c then lexemes rest
      else
        have := lexemePart_length_le c rest
        (lexemePart c rest).1 :: lexemes (lexemePart c rest).2
termination_by text.length

end Criteria.Json
