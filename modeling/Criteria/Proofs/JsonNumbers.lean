/-
# Criteria.Proofs.JsonNumbers -- a number in JSON text is one lexeme

JSON takes fewer numbers than other texts do (`WrittenNumber.IsJson`).  Of such a number all is cut
off as one lexeme, whatever follows it that cannot go on with it (`lexemes_written`).

The text of an integer is such a number, and its lexeme has the integer for its value
(`lexemes_integer`).  So is the text of a finite double, in either layout
(`exists_written_finite`): the digits that are found for it are no zero (`shortest_cases`), and a
point or an exponent shows that it is no integer.  The value of its lexeme is a double again,
though perhaps another one, or it is too large to be read; the text of any other double is
`null` (`lexemes_float`).
-/
import Criteria.Json.Lexeme
import Criteria.Proofs.WrittenNumbers

namespace Criteria

set_option autoImplicit false

open Decimal

/-! ## Numbers that JSON takes -/

/-- JSON takes the number: it has no plus in front, digits on both sides of a point, and no
needless zero before them. -/
structure Decimal.WrittenNumber.IsJson (n : WrittenNumber) : Prop where
  unsigned : n.sign ≠ .plus
  whole : n.whole.chars ≠ []
  led : n.whole.chars = ['0'] ∨ n.whole.chars.head? ≠ some '0'
  fraction : ∀ d, n.fraction = some d → d.chars ≠ []

namespace Json

/-- What is read of a written number. -/
def Numeral.ofWritten (n : WrittenNumber) : Numeral :=
  ⟨n.sign.isMinus, n.whole.chars, n.fraction.map Digits.chars, n.exponent.map Exponent.value⟩

/-- What may stand behind a value: the mark that goes on or ends what the value is in. -/
def Delimited (rest : List Char) : Prop :=
  ∀ c ∈ rest.head?, c = ',' ∨ c = ']' ∨ c = '\x7d'

theorem delimited_cons {c : Char} (mark : c = ',' ∨ c = ']' ∨ c = '\x7d') (rest : List Char) :
    Delimited (c :: rest) := by
  rintro d ⟨⟩
  exact mark

section

variable {rest : List Char}

theorem spanDigits_append (d : Digits) (stop : ∀ c ∈ rest.head?, c.isDigit = false) :
    spanDigits (d.chars ++ rest) = (d.chars, rest) := by
  rw [spanDigits, takeWhile_isDigit_append d.all stop, dropWhile_isDigit_append d.all stop]

/-- Neither a mark behind the number nor that of an exponent goes on with digits. -/
theorem exponentChars_append_stop (x : Option Exponent) (delimited : Delimited rest) :
    ∀ c ∈ (exponentChars x ++ rest).head?, c.isDigit = false ∧ c ≠ '.' := by
  cases x with
  | none =>
      intro c first
      rcases delimited c first with rfl | rfl | rfl <;> decide
  | some x =>
      rintro c ⟨⟩
      rcases x.isMark with mark | mark <;> rw [mark] <;> decide

theorem fractionChars_append_stop (d : Option Digits) (x : Option Exponent)
    (delimited : Delimited rest) :
    ∀ c ∈ (fractionChars d ++ (exponentChars x ++ rest)).head?, c.isDigit = false := by
  cases d with
  | none => exact fun c first => (exponentChars_append_stop x delimited c first).1
  | some d =>
      rintro c ⟨⟩
      rfl

theorem exponentPart_append (negative : Bool) (whole : List Char) (fraction : Option (List Char))
    (x : Option Exponent) (delimited : Delimited rest) :
    exponentPart negative whole fraction (exponentChars x ++ rest) =
      (numberLexeme ⟨negative, whole, fraction, x.map Exponent.value⟩, rest) := by
  cases x with
  | none =>
      cases rest with
      | nil => rfl
      | cons c rest => rcases delimited c rfl with rfl | rfl | rfl <;> rfl
  | some x =>
      have stop : ∀ c ∈ rest.head?, c.isDigit = false := fun c first =>
        (exponentChars_append_stop none delimited c first).1
      have unsigned : ∀ c ∈ (x.digits.chars ++ rest).head?, c ≠ '-' ∧ c ≠ '+' := by
        intro c first
        rw [List.head?_append_of_ne_nil _ x.some_] at first
        exact x.digits.unsigned c first
      rw [exponentChars, Exponent.chars, List.cons_append, List.append_assoc]
      simp only [exponentPart, if_pos x.isMark, sign_chars_append x.sign unsigned,
        spanDigits_append x.digits stop, List.isEmpty_eq_false_iff.mpr x.some_, Bool.false_eq_true,
        if_false, Option.map_some]
      rfl

theorem fractionPart_append (negative : Bool) (whole : List Char) (d : Option Digits)
    (some_ : ∀ ds, d = some ds → ds.chars ≠ []) (x : Option Exponent) (delimited : Delimited rest) :
    fractionPart negative whole (fractionChars d ++ (exponentChars x ++ rest)) =
      (numberLexeme ⟨negative, whole, d.map Digits.chars, x.map Exponent.value⟩, rest) := by
  have stop := exponentChars_append_stop x delimited
  cases d with
  | none =>
      rw [fractionChars, List.nil_append, fractionPart.eq_def]
      split
      · rename_i point
        exact absurd rfl (stop '.' (by rw [point]; rfl)).2
      · exact exponentPart_append negative whole none x delimited
  | some d =>
      have digits := spanDigits_append d fun c first => (stop c first).1
      rw [fractionChars, List.cons_append]
      simp only [fractionPart, digits, List.isEmpty_eq_false_iff.mpr (some_ d rfl),
        Bool.false_eq_true, if_false]
      exact exponentPart_append negative whole (some d.chars) x delimited

theorem numberPart_append (negative : Bool) {n : WrittenNumber} (json : n.IsJson)
    (delimited : Delimited rest) :
    numberPart negative
        (n.whole.chars ++ (fractionChars n.fraction ++ (exponentChars n.exponent ++ rest))) =
      (numberLexeme ⟨negative, n.whole.chars, n.fraction.map Digits.chars,
        n.exponent.map Exponent.value⟩, rest) := by
  rw [numberPart, spanDigits_append n.whole (fractionChars_append_stop _ _ delimited)]
  dsimp only
  -- The digits are neither missing nor a zero with more behind it.
  split
  · rename_i none_
    exact absurd none_ json.whole
  · rename_i led
    rcases json.led with zero | other
    · rw [zero] at led
      cases led
    · exact absurd (by rw [led]; rfl) other
  · exact fractionPart_append negative _ n.fraction json.fraction n.exponent delimited

/-! ## Their lexemes -/

theorem lexemes_cons {c : Char} (shown : isSpace c = false) (text : List Char) :
    lexemes (c :: text) = (lexemePart c text).1 :: lexemes (lexemePart c text).2 := by
  rw [lexemes, shown, if_neg Bool.false_ne_true]

theorem lexemes_of_part {c : Char} {text rest : List Char} {l : Lexeme}
    (shown : isSpace c = false) (part : lexemePart c text = (l, rest)) :
    lexemes (c :: text) = l :: lexemes rest := by
  rw [lexemes_cons shown, part]

theorem lexemePart_digit {c : Char} (digit : c.isDigit = true) (text : List Char) :
    isSpace c = false ∧ lexemePart c text = numberPart false (c :: text) := by
  have other : ∀ d : Char, d.isDigit = false → c ≠ d := by
    rintro d letter rfl
    rw [letter] at digit
    cases digit
  constructor
  · simp [isSpace, other]
  · unfold lexemePart
    iterate 11 rw [if_neg (other _ (by decide))]
    rw [if_pos digit]

/-- **A number is cut off whole**, with whatever may stand behind it. -/
theorem lexemes_written {n : WrittenNumber} (json : n.IsJson) (delimited : Delimited rest) :
    lexemes (n.chars ++ rest) = numberLexeme (.ofWritten n) :: lexemes rest := by
  have part := fun negative => numberPart_append negative json delimited
  simp only [WrittenNumber.chars, List.append_assoc]
  unfold Numeral.ofWritten
  cases sign : n.sign with
  | plus => exact absurd sign json.unsigned
  | minus => exact lexemes_of_part rfl (part true)
  | none =>
      obtain ⟨c, digits, whole⟩ := List.exists_cons_of_ne_nil json.whole
      have digit : c.isDigit = true := n.whole.all c (by rw [whole]; exact List.mem_cons_self)
      have unsigned := part false
      rw [whole, List.cons_append] at unsigned ⊢
      obtain ⟨shown, same⟩ := lexemePart_digit digit
        (digits ++ (fractionChars n.fraction ++ (exponentChars n.exponent ++ rest)))
      exact lexemes_of_part shown (same.trans unsigned)

end

/-! ## Integers -/

theorem digitsValue_toDigits (n : Nat) : digitsValue (Nat.toDigits 10 n) = n := by
  rw [digitsValue, ← Nat.ofDigitChars_eq_foldl]
  exact Nat.ofDigitChars_ten_toDigits

/-- Only zero is written with a zero in front. -/
theorem head?_toDigits {n : Nat} (positive : 0 < n) : (Nat.toDigits 10 n).head? ≠ some '0' := by
  induction n using Nat.strongRecOn with
  | _ n ih =>
    by_cases small : n < 10
    · rw [Nat.toDigits_of_lt_base small]
      have digit : ∀ d < 10, 0 < d → [Nat.digitChar d].head? ≠ some '0' := by decide
      exact digit n small positive
    · obtain ⟨d, ds, front⟩ := List.exists_cons_of_ne_nil
        (Nat.toDigits_ne_nil : Nat.toDigits 10 (n / 10) ≠ [])
      have led := ih (n / 10) (by omega) (by omega)
      rw [front] at led
      rw [Nat.toDigits_of_base_le (by decide) (Nat.le_of_not_lt small), front]
      exact led

/-- The digits of a number. -/
def digitsOf (n : Nat) : Digits :=
  ⟨Nat.toDigits 10 n, fun _ => Nat.isDigit_of_mem_toDigits (by decide) (by decide)⟩

theorem digitsOf_ne_nil (n : Nat) : (digitsOf n).chars ≠ [] :=
  Nat.toDigits_ne_nil

theorem led_digitsOf (n : Nat) :
    (digitsOf n).chars = ['0'] ∨ (digitsOf n).chars.head? ≠ some '0' := by
  rcases Nat.eq_zero_or_pos n with rfl | positive
  · exact .inl rfl
  · exact .inr (head?_toDigits positive)

theorem lexemes_integer {n : Int} (lower : -Nat.pow 2 63 ≤ n) (upper : n < Nat.pow 2 64)
    {rest : List Char} (delimited : Delimited rest) :
    lexemes (integerChars n ++ rest) = .number (.ok (.integer n)) :: lexemes rest := by
  have some_ : (digitsOf n.natAbs).chars ++ ([] : List Char) ≠ [] := by
    simpa using digitsOf_ne_nil n.natAbs
  have written := fun sign (unsigned : sign ≠ Sign.plus) =>
    lexemes_written (n := ⟨sign, digitsOf n.natAbs, none, none, some_⟩)
      ⟨unsigned, digitsOf_ne_nil _, led_digitsOf _, by rintro _ ⟨⟩⟩ delimited
  simp only [WrittenNumber.chars, fractionChars, exponentChars, List.append_nil] at written
  by_cases negative : n < 0
  · have size : n.natAbs ≠ 0 ∧ n.natAbs ≤ Nat.pow 2 63 := by omega
    have back : -(n.natAbs : Int) = n := by omega
    have value : numberLexeme ⟨true, Nat.toDigits 10 n.natAbs, none, none⟩ =
        .number (.ok (.integer n)) := by
      simp only [numberLexeme, Numeral.value?, digitsValue_toDigits, if_true, if_pos size, back]
    rw [integerChars, if_pos negative, ← value]
    exact written .minus (by rintro ⟨⟩)
  · have size : n.natAbs < Nat.pow 2 64 := by omega
    have back : (n.natAbs : Int) = n := by omega
    have value : numberLexeme ⟨false, Nat.toDigits 10 n.natAbs, none, none⟩ =
        .number (.ok (.integer n)) := by
      simp only [numberLexeme, Numeral.value?, digitsValue_toDigits, Bool.false_eq_true, if_false,
        if_pos size, back]
    rw [integerChars, if_neg negative, ← value]
    exact written .none (by rintro ⟨⟩)

end Json

/-! ## The digits of a double -/

namespace Decimal

theorem Grid.pos_of_holds {g : Grid} (low : 0 < g.low) {closed : Bool} {n : Nat}
    (holds : g.holds closed n = true) : 0 < n := by
  refine Nat.pos_of_ne_zero ?_
  rintro rfl
  cases closed
  · simp [Grid.holds] at holds
  · simp [Grid.holds] at holds
    omega

theorem Grid.pos_of_nearest? {g : Grid} (low : 0 < g.low) (value : 0 < g.value) {closed : Bool}
    {tie : Tie} {n : Nat} (found : g.nearest? closed tie = some n) : 0 < n := by
  unfold Grid.nearest? at found
  dsimp only at found
  split at found
  · rename_i whole
    cases found
    refine Nat.pos_of_ne_zero fun zero => ?_
    have parts := Nat.div_add_mod g.value g.step
    rw [zero, whole] at parts
    omega
  · split at found
    · rename_i below _
      cases found
      exact pos_of_holds low below
    · cases found
      exact Nat.succ_pos _
    · cases found
    · rename_i below _
      have point := pos_of_holds low below
      repeat' split at found
      all_goals
        cases found
        omega

/-- The digits that are found for a positive double are no zero. -/
theorem shortest_cases (tie : Tie) {significand : Nat} (positive : 0 < significand)
    (exponent : Int) :
    shortest tie significand exponent = ⟨0, 0⟩ ∨
      0 < (shortest tie significand exponent).digits := by
  unfold shortest
  dsimp only
  cases hit : ((List.range 24).map fun (n : Nat) => topPlace significand exponent - n).findSome?
      fun place =>
        ((Grid.around significand exponent place).nearest? (significand % 2 == 0) tie).map
          fun digits => Scaled.mk digits place with
  | none => exact .inl rfl
  | some d =>
      obtain ⟨place, -, found⟩ := List.exists_of_findSome?_eq_some hit
      obtain ⟨n, nearest, rfl⟩ := Option.map_eq_some_iff.mp found
      have scale : 0 < Nat.pow 2 (exponent - 2).toNat * Nat.pow 10 (-place).toNat :=
        Nat.mul_pos (Nat.pow_pos (by decide)) (Nat.pow_pos (by decide))
      have low : 0 < (Grid.around significand exponent place).low := by
        refine Nat.mul_pos ?_ scale
        split <;> omega
      have value : 0 < (Grid.around significand exponent place).value :=
        Nat.mul_pos (by omega) scale
      exact .inr (Grid.pos_of_nearest? low value nearest)

end Decimal

/-! ## The layouts of a double -/

namespace Json

/-- A text behind the sign of a number that JSON takes and that is written as no integer. -/
def Pointed (text : List Char) : Prop :=
  ∀ sign ≠ Sign.plus, ∃ n : WrittenNumber, n.IsJson ∧ (n.fraction = none → n.exponent ≠ none) ∧
    n.chars = sign.chars ++ text

theorem pointed_of_parts (whole : Digits) (fraction : Option Digits) (exponent : Option Exponent)
    (some_ : whole.chars ≠ []) (led : whole.chars = ['0'] ∨ whole.chars.head? ≠ some '0')
    (places : ∀ d, fraction = some d → d.chars ≠ [])
    (noInteger : fraction = none → exponent ≠ none) :
    Pointed (whole.chars ++ (fractionChars fraction ++ exponentChars exponent)) :=
  fun sign unsigned =>
  ⟨⟨sign, whole, fraction, exponent, List.append_ne_nil_of_left_ne_nil some_ _⟩,
    ⟨unsigned, some_, led, places⟩, noInteger, rfl⟩

/-- All digits in their places; only a single zero has a zero in front. -/
theorem pointed_positional {n : Nat} {place : Int} (single : n = 0 → place = 0) :
    Pointed (positionalChars (digitsOf n).chars place true) := by
  have led := led_digitsOf n
  have some_ := digitsOf_ne_nil n
  have all := (digitsOf n).all
  have zeros : ∀ count, ∀ c ∈ List.replicate count '0', c.isDigit = true := by
    intro count c member
    rw [List.eq_of_mem_replicate member]
    rfl
  rw [positionalChars]
  split
  · -- Zeros up to the point, and one behind it.
    have whole : (digitsOf n).chars ++ List.replicate place.toNat '0' = ['0'] ∨
        ((digitsOf n).chars ++ List.replicate place.toNat '0').head? ≠ some '0' := by
      rw [List.head?_append_of_ne_nil _ some_]
      rcases Nat.eq_zero_or_pos n with rfl | positive
      · exact .inl (by rw [single rfl]; rfl)
      · exact .inr (head?_toDigits positive)
    have parts := pointed_of_parts
      ⟨_, List.forall_mem_append.mpr ⟨all, zeros place.toNat⟩⟩
      (some ⟨['0'], List.forall_mem_singleton.mpr rfl⟩) none
      (List.append_ne_nil_of_left_ne_nil some_ _) whole (by rintro _ ⟨⟩; decide) (by rintro ⟨⟩)
    simpa [fractionChars, exponentChars] using parts
  · rename_i negative
    dsimp only
    split
    · -- The point is among the digits.
      rename_i within
      have front : (digitsOf n).chars.take ((digitsOf n).chars.length - (-place).toNat) ≠ [] :=
        List.ne_nil_of_length_pos (by rw [List.length_take]; omega)
      have back : (digitsOf n).chars.drop ((digitsOf n).chars.length - (-place).toNat) ≠ [] :=
        List.ne_nil_of_length_pos (by rw [List.length_drop]; omega)
      have positive : 0 < n := Nat.pos_of_ne_zero fun zero => negative (single zero).ge
      have parts := pointed_of_parts ⟨_, fun c member => all c (List.mem_of_mem_take member)⟩
        (some ⟨_, fun c member => all c (List.mem_of_mem_drop member)⟩) none front
        (.inr (by rw [List.head?_take, if_neg (by omega)]; exact head?_toDigits positive))
        (by rintro _ ⟨⟩; exact back) (by rintro ⟨⟩)
      simpa [fractionChars, exponentChars] using parts
    · -- The point is before them.
      have parts := pointed_of_parts ⟨['0'], List.forall_mem_singleton.mpr rfl⟩
        (some ⟨_, List.forall_mem_append.mpr
          ⟨zeros ((-place).toNat - (digitsOf n).chars.length), all⟩⟩) none (by decide) (.inl rfl)
        (by rintro _ ⟨⟩; exact List.append_ne_nil_of_right_ne_nil _ some_) (by rintro ⟨⟩)
      simpa [fractionChars, exponentChars] using parts

/-- One digit before the point, and so no zero in front of others. -/
theorem pointed_scientific (n : Nat) (leading : Int) :
    Pointed (scientificChars (digitsOf n).chars leading) := by
  have some_ := digitsOf_ne_nil n
  have all := (digitsOf n).all
  obtain ⟨x, size⟩ : ∃ x : Exponent, x.chars =
      'e' :: (if 0 ≤ leading then '+' :: digitChars leading.natAbs
        else '-' :: digitChars leading.natAbs) := by
    refine ⟨⟨'e', if 0 ≤ leading then .plus else .minus, digitsOf leading.natAbs, .inl rfl,
      digitsOf_ne_nil _⟩, ?_⟩
    split <;> rfl
  have led : ∀ c : Char, [c] = ['0'] ∨ [c].head? ≠ some '0' := by
    intro c
    by_cases zero : c = '0'
    · exact .inl (by rw [zero])
    · exact .inr (by simpa using zero)
  rw [scientificChars.eq_def]
  dsimp only
  rw [← size]
  generalize (digitsOf n).chars = digits at some_ all ⊢
  match digits with
  | [] => exact absurd rfl some_
  | [first] =>
      have parts := pointed_of_parts ⟨[first], all⟩ none (some x) (by simp) (led first)
        (by rintro _ ⟨⟩) (by rintro _ ⟨⟩)
      simpa [fractionChars, exponentChars] using parts
  | first :: second :: rest =>
      obtain ⟨here, behind⟩ := List.forall_mem_cons.mp all
      have parts := pointed_of_parts ⟨[first], List.forall_mem_singleton.mpr here⟩
        (some ⟨second :: rest, behind⟩) (some x) (by simp) (led first)
        (by rintro _ ⟨⟩; exact List.cons_ne_nil _ _) (by rintro ⟨⟩)
      simpa [fractionChars, exponentChars] using parts

/-- **The text of a finite double is a number that JSON takes**, and no integer. -/
theorem exists_written_finite (negative : Bool) (significand : Nat) (exponent : Int) :
    ∃ n : WrittenNumber, n.IsJson ∧ (n.fraction = none → n.exponent ≠ none) ∧
      n.chars = Layout.json.chars (.finite negative significand exponent) := by
  have pointed : Pointed (if significand = 0 then positionalChars ['0'] 0 true
      else Layout.json.unsigned (shortest .even significand exponent)) := by
    split
    · exact pointed_positional (n := 0) fun _ => rfl
    · rename_i some_
      have cases := shortest_cases .even (Nat.pos_of_ne_zero some_) exponent
      generalize shortest .even significand exponent = d at cases
      have single : d.digits = 0 → d.exponent = 0 := by
        rcases cases with rfl | positive
        · exact fun _ => rfl
        · omega
      rw [Layout.unsigned]
      dsimp only [Layout.json]
      split
      · exact pointed_positional single
      · exact pointed_scientific d.digits _
  obtain ⟨n, json, noInteger, text⟩ := pointed (if negative then .minus else .none) (by
    cases negative <;> nofun)
  refine ⟨n, json, noInteger, text.trans ?_⟩
  cases negative <;> rfl

/-- What shows that it is no integer has a double for its value, or none. -/
theorem numberLexeme_double {n : Numeral} (noInteger : n.fraction = none → n.exponent ≠ none) :
    ∃ v, numberLexeme n = .number v ∧ ∀ j, v = .ok j → ∃ y, j = .float y := by
  refine ⟨_, rfl, fun j read => ?_⟩
  have value : n.value? = n.toFloat?.map .float := by
    unfold Numeral.value?
    split
    · rename_i fraction exponent
      exact absurd exponent (noInteger fraction)
    · rfl
  rw [value] at read
  cases found : n.toFloat? with
  | none =>
      rw [found] at read
      cases read
  | some y =>
      rw [found] at read
      cases read
      exact ⟨y, rfl⟩

/-- **The text of a double is one lexeme**: null, or a number that is a double again if it can be
read. -/
theorem lexemes_float (x : Float) :
    ∃ l, (∀ rest, Delimited rest → lexemes ((Json.float x).chars ++ rest) = l :: lexemes rest) ∧
      (l = .null ∨ ∃ v, l = .number v ∧ ∀ j, v = .ok j → ∃ y, j = .float y) := by
  rw [chars]
  cases Binary64.ofFloat x with
  | notANumber => exact ⟨.null, fun rest _ => lexemes_of_part rfl rfl, .inl rfl⟩
  | infinite negative =>
      refine ⟨.null, fun rest _ => ?_, .inl rfl⟩
      have text : Layout.json.chars (.infinite negative) = ['n', 'u', 'l', 'l'] := by
        cases negative <;> rfl
      rw [text]
      exact lexemes_of_part rfl rfl
  | finite negative significand exponent =>
      obtain ⟨n, json, noInteger, text⟩ := exists_written_finite negative significand exponent
      obtain ⟨v, lexeme, double⟩ := numberLexeme_double (n := .ofWritten n) (by
        simpa [Numeral.ofWritten] using noInteger)
      rw [← text]
      exact ⟨_, fun rest delimited => lexemes_written json delimited, .inr ⟨v, lexeme, double⟩⟩

end Json

end Criteria
