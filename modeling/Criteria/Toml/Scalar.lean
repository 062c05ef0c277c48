/-
# Criteria.Toml.Scalar -- keys, strings, numbers and dates of TOML

Each reader takes the text from a place on and gives what stands there and the
rest, or nothing when the text is refused.
-/
import Criteria.Calendar.Text
import Criteria.Toml.Basic

namespace Criteria.Toml

set_option autoImplicit false

/-- A reader gives what it read and the text behind it. -/
def Reader (α : Type) : Type :=
  List Char → Option (α × List Char)

/-! ## Blanks and comments -/

def isBlank (c : Char) : Bool :=
  c = ' ' || c = '\t'

def skipBlanks (text : List Char) : List Char :=
  text.dropWhile isBlank

/-- The characters that may stand in comments and, but for quotes and escapes, in
strings: no controls but the tab. -/
def isPrintable (c : Char) : Bool :=
  c = '\t' || (0x20 ≤ c.toNat && c.toNat ≠ 0x7F)

/-- What follows a line break, if there is one. -/
def lineBreak? : List Char → Option (List Char)
  | '\n' :: rest => some rest
  | '\r' :: '\n' :: rest => some rest
  | _ => none

/-- What follows a comment, if there is one. -/
def skipComment (text : List Char) : List Char :=
  match text with
  | '#' :: rest => rest.dropWhile isPrintable
  | _ => text

/-- What follows the end of a line: blanks, a comment, and a line break or the end
of the text. -/
def endOfLine? (text : List Char) : Option (List Char) :=
  match skipComment (skipBlanks text) with
  | [] => some []
  | rest => lineBreak? rest

theorem lineBreak?_length_lt {text rest : List Char} (h : lineBreak? text = some rest) :
    rest.length < text.length := by
  unfold lineBreak? at h
  split at h
  · cases h; simp
  · cases h; simp only [List.length_cons]; omega
  · cases h

/-- Skip blanks and line breaks. -/
def skipBreaks : List Char → List Char
  | [] => []
  | '\n' :: rest => skipBreaks rest
  | '\r' :: '\n' :: rest => skipBreaks rest
  | c :: rest => if isBlank c then skipBreaks rest else c :: rest

/-- Skip blanks, comments and line breaks. -/
def skipLines (text : List Char) : List Char :=
  match h : lineBreak? (skipComment (skipBlanks text)) with
  | some rest =>
      have := lineBreak?_length_lt h
      have := skipComment_length_le (skipBlanks text)
      have : (skipBlanks text).length ≤ text.length := (List.dropWhile_suffix _).length_le
      skipLines rest
  | none => if (skipComment (skipBlanks text)).isEmpty then [] else skipBlanks text
termination_by text.length
where
  skipComment_length_le (text : List Char) : (skipComment text).length ≤ text.length := by
    unfold skipComment
    split
    · have h := (List.dropWhile_suffix isPrintable (l := ‹List Char›)).length_le
      simp only [List.length_cons]
      omega
    · exact Nat.le_refl _

/-! ## Strings -/

def hexDigitValue? (c : Char) : Option Nat :=
  if '0' ≤ c ∧ c ≤ '9' then some (c.toNat - '0'.toNat)
  else if 'a' ≤ c ∧ c ≤ 'f' then some (c.toNat - 'a'.toNat + 10)
  else if 'A' ≤ c ∧ c ≤ 'F' then some (c.toNat - 'A'.toNat + 10)
  else none

/-- The number that digits of a base denote. -/
def numberOf? (base : Nat) (digits : List Char) : Option Nat :=
  digits.foldlM (fun n c => do
    let d ← hexDigitValue? c
    if d < base then some (base * n + d) else none) 0

/-- The character of a code point in `count` hexadecimal digits. -/
def codePoint? (count : Nat) : Reader Char := fun text => do
  let digits := text.take count
  if digits.length ≠ count then none
  let n ← numberOf? 16 digits
  if n.isValidChar then some (.ofNat n, text.drop count) else none

/-- An escape behind its backslash. -/
def escape? : Reader Char
  | [] => none
  | 'b' :: rest => some ('\x08', rest)
  | 't' :: rest => some ('\t', rest)
  | 'n' :: rest => some ('\n', rest)
  | 'f' :: rest => some ('\x0c', rest)
  | 'r' :: rest => some ('\r', rest)
  | '"' :: rest => some ('"', rest)
  | '\\' :: rest => some ('\\', rest)
  | 'u' :: rest => codePoint? 4 rest
  | 'U' :: rest => codePoint? 8 rest
  | _ => none

/-- A one-line string with escapes, behind its quote.  `fuel` bounds the number of
characters. -/
def basicChars : Nat → Reader (List Char)
  | 0, _ => none
  | _ + 1, [] => none
  | _ + 1, '"' :: rest => some ([], rest)
  | fuel + 1, '\\' :: rest => do
      let (c, rest) ← escape? rest
      let (cs, rest) ← basicChars fuel rest
      return (c :: cs, rest)
  | fuel + 1, c :: rest =>
      if isPrintable c then do
        let (cs, rest) ← basicChars fuel rest
        return (c :: cs, rest)
      else none

/-- A one-line string without escapes, behind its quote. -/
def literalChars (text : List Char) : Option (List Char × List Char) :=
  let inside := text.takeWhile fun c => c ≠ '\'' && isPrintable c
  match text.drop inside.length with
  | '\'' :: rest => some (inside, rest)
  | _ => none

/-- The end of a string in triple quotes: up to two more quotes belong to it. -/
def tripleEnd? (quote : Char) : Reader (List Char)
  | a :: b :: c :: rest =>
      if a = quote ∧ b = quote ∧ c = quote then
        let extra := (rest.take 2).takeWhile (· = quote)
        some (extra, rest.drop extra.length)
      else none
  | _ => none

/-- A string in triple quotes behind its opening.  A line break counts as one
character; with escapes, a backslash at the end of a line joins it to the next
line that is not blank. -/
def tripleChars (quote : Char) (escapes : Bool) : Nat → Reader (List Char)
  | 0, _ => none
  | fuel + 1, text =>
      match tripleEnd? quote text, lineBreak? text, text with
      | some done, _, _ => some done
      | none, some rest, _ => do
          let (cs, rest) ← tripleChars quote escapes fuel rest
          return ('\n' :: cs, rest)
      | none, none, [] => none
      | none, none, c :: rest =>
          if escapes ∧ c = '\\' then
            match lineBreak? (skipBlanks rest) with
            | some rest =>
                tripleChars quote escapes fuel (skipBreaks rest)
            | none => do
                let (c, rest) ← escape? rest
                let (cs, rest) ← tripleChars quote escapes fuel rest
                return (c :: cs, rest)
          else if isPrintable c then do
            let (cs, rest) ← tripleChars quote escapes fuel rest
            return (c :: cs, rest)
          else none

/-- A string of any of the four forms. -/
def string? : Reader String := fun text =>
  match text with
  | '"' :: '"' :: '"' :: rest => triple '"' true rest
  | '\'' :: '\'' :: '\'' :: rest => triple '\'' false rest
  | '"' :: rest => (basicChars (rest.length + 1) rest).map finish
  | '\'' :: rest => (literalChars rest).map finish
  | _ => none
where
  finish (r : List Char × List Char) : String × List Char :=
    (.ofList r.1, r.2)
  triple (quote : Char) (escapes : Bool) (rest : List Char) : Option (String × List Char) :=
    let rest := (lineBreak? rest).getD rest
    (tripleChars quote escapes (rest.length + 1) rest).map finish

/-! ## Keys -/

def isBareChar (c : Char) : Bool :=
  c.isAlphanum || c = '_' || c = '-'

/-- One part of a key. -/
def keyPart? : Reader String := fun text =>
  match text with
  | '"' :: rest => (basicChars (rest.length + 1) rest).map fun r => (.ofList r.1, r.2)
  | '\'' :: rest => (literalChars rest).map fun r => (.ofList r.1, r.2)
  | _ =>
      let part := text.takeWhile isBareChar
      if part.isEmpty then none else some (.ofList part, text.drop part.length)

/-- The parts of a dotted key, with the blanks around them; `fuel` bounds their
number. -/
def keyParts? : Nat → Reader (List String)
  | 0, _ => none
  | fuel + 1, text => do
      let (part, rest) ← keyPart? (skipBlanks text)
      match skipBlanks rest with
      | '.' :: rest => do
          let (parts, rest) ← keyParts? fuel rest
          return (part :: parts, rest)
      | rest => return ([part], rest)

/-- The most containers, or parts of a key, inside one another. -/
def nestingLimit : Nat := 79

def key? : Reader (List String) :=
  keyParts? nestingLimit

/-! ## Numbers and dates -/

/-- What a reader that may give way to another says. -/
inductive Attempt where
  | absent
  | refused
  | read (v : Toml) (rest : List Char)

/-- A run of digits with single underscores between them. -/
def spanDigits (isDigit : Char → Bool) (text : List Char) : List Char × List Char :=
  (text.takeWhile fun c => isDigit c || c = '_', text.dropWhile fun c => isDigit c || c = '_')

/-- Whether every underscore stands between two digits. -/
def wellSpaced (run : List Char) : Bool :=
  !run.isEmpty && run.head? != some '_' && run.getLast? != some '_' &&
    !(run.zip run.tail).any fun (a, b) => a = '_' && b = '_'

def withoutUnderscores (run : List Char) : List Char :=
  run.filter (· ≠ '_')

def sign (text : List Char) : List Char × List Char :=
  match text with
  | '+' :: rest => (['+'], rest)
  | '-' :: rest => (['-'], rest)
  | _ => ([], text)

/-- An integer in a base other than ten, behind its mark. -/
def basedInteger (base : Nat) (text : List Char) : Attempt :=
  let (run, rest) := spanDigits (fun c => ((hexDigitValue? c).any (· < base))) text
  match wellSpaced run, numberOf? base (withoutUnderscores run) with
  | true, some n => if n < Nat.pow 2 63 then .read (.integer n) rest else .refused
  | _, _ => .refused

/-- A float is refused when it is too large; a negative one may be. -/
def finishFloat (written rest : List Char) : Attempt :=
  match Decimal.Numeral.read? (withoutUnderscores written) with
  | some n => if n.overflows && !n.negative then .refused else .read .float rest
  | none => .refused

def startsExponent (text : List Char) : Bool :=
  text.head? == some 'e' || text.head? == some 'E'

/-- A float from its exponent on, if it has one. -/
def floatTail (written text : List Char) : Attempt :=
  if startsExponent text then
    let (s, unsigned) := sign text.tail
    let (run, rest) := spanDigits Char.isDigit unsigned
    if wellSpaced run then finishFloat (written ++ 'e' :: s ++ run) rest else .refused
  else finishFloat written text

/-- A decimal integer or a float. -/
def decimal (text : List Char) : Attempt :=
  let (s, unsigned) := sign text
  let (run, rest) := spanDigits Char.isDigit unsigned
  if run.isEmpty ∨ ¬wellSpaced run then .refused
  else if run.length > 1 ∧ run.head? = some '0' then .refused
  else
    match rest with
    | '.' :: after =>
        let (fraction, rest) := spanDigits Char.isDigit after
        if wellSpaced fraction then floatTail (s ++ run ++ '.' :: fraction) rest else .refused
    | _ =>
        if startsExponent rest then floatTail (s ++ run) rest
        else
          let size : Int := Decimal.digitsValue (withoutUnderscores run)
          let n := if s = ['-'] then -size else size
          if -Nat.pow 2 63 ≤ n ∧ n < Nat.pow 2 63 then .read (.integer n) rest else .refused

/-- What follows a time of day behind its hour and colon. -/
def afterHour? (text : List Char) : Option (List Char) := do
  let (minute, rest) ← Calendar.readDigits? 2 text
  let rest ← Calendar.readChar? ':' rest
  let (second, rest) ← Calendar.readDigits? 2 rest
  if 59 < minute ∨ 60 < second then none
  else
    match rest with
    | '.' :: after =>
        let digits := after.takeWhile Char.isDigit
        if digits.isEmpty then some rest else some (after.drop digits.length)
    | _ => some rest

/-- What follows a time of day; `none` when none stands here, `some none` when a
bad one does. -/
def timeOfDay? (text : List Char) : Option (Option (List Char)) :=
  match Calendar.readDigits? 2 text with
  | some (hour, ':' :: rest) => if hour ≤ 23 then some (afterHour? rest) else none
  | _ => none

/-- What follows an offset from UTC, or the text itself if none stands here. -/
def afterOffset? (text : List Char) : Option (List Char) :=
  match text with
  | 'Z' :: rest => some rest
  | 'z' :: rest => some rest
  | c :: rest =>
      if c = '+' ∨ c = '-' then do
        let (hour, rest) ← Calendar.readDigits? 2 rest
        let rest ← Calendar.readChar? ':' rest
        let (minute, rest) ← Calendar.readDigits? 2 rest
        if hour ≤ 23 ∧ minute ≤ 59 then some rest else none
      else some text
  | [] => some text

/-- The time of day and the offset that may follow a date. -/
def afterDate (text : List Char) : Attempt :=
  match text with
  | c :: rest =>
      if c = 'T' ∨ c = 't' ∨ c = ' ' then
        match timeOfDay? rest with
        | some (some rest) =>
            match afterOffset? rest with
            | some rest => .read .datetime rest
            | none => .refused
        | some none => .refused
        | none => .read .datetime text
      else .read .datetime text
  | [] => .read .datetime text

/-- A date, a time of day, or both. -/
def dateOrTime (text : List Char) : Attempt :=
  match Calendar.readDigits? 4 text with
  | some (year, '-' :: rest) =>
      match monthAndDay? rest with
      | some (month, day, rest) =>
          if (Calendar.Date.of? year month day).isSome then afterDate rest else .refused
      | none => .refused
  | _ =>
      match timeOfDay? text with
      | some (some rest) => .read .datetime rest
      | some none => .refused
      | none => .absent
where
  monthAndDay? (text : List Char) : Option (Nat × Nat × List Char) := do
    let (month, rest) ← Calendar.readDigits? 2 text
    let rest ← Calendar.readChar? '-' rest
    let (day, rest) ← Calendar.readDigits? 2 rest
    return (month, day, rest)

/-- A word that is a value. -/
def word? (word : String) (v : Toml) (text : List Char) : Option (Toml × List Char) :=
  if word.toList.isPrefixOf text then some (v, text.drop word.length) else none

/-- A number or a date. -/
def number? : Reader Toml := fun text =>
  let attempt :=
    match text with
    | '0' :: 'x' :: rest => basedInteger 16 rest
    | '0' :: 'o' :: rest => basedInteger 8 rest
    | '0' :: 'b' :: rest => basedInteger 2 rest
    | _ =>
        match dateOrTime text with
        | .absent =>
            match word? "inf" .float (sign text).2, word? "nan" .float (sign text).2 with
            | some (v, rest), _ => .read v rest
            | _, some (v, rest) => .read v rest
            | _, _ => decimal text
        | attempt => attempt
  match attempt with
  | .read v rest => some (v, rest)
  | _ => none

end Criteria.Toml
