/-
# Criteria.Proofs.ListReading -- a written list is read back, and nothing behind it

`renderList` writes values of the caller into SQL text.  `readList` reads such a list
the way SQL does, without knowing what was to be written: blanks part lexemes, a
quoted literal ends at the first quote that is not followed by another, and a doubled
quote inside stands for one (`readQuoted`).

`readList_listChars` is the round trip of items, `literals_items` says which literals
a list of values is written with, and `readList_renderList` puts them together: whatever
text follows, reading stops behind the list's own parenthesis.
-/
import Criteria.Literal

namespace Criteria

set_option autoImplicit false

/-! ## Lexemes -/

/-- Whether a character ends a word. -/
def isDelimiter (c : Char) : Bool :=
  c.isWhitespace || c = '(' || c = ')' || c = ',' || c = '\''

inductive Lexeme where
  | opening
  | closing
  | comma
  /-- a literal between quotes, each doubled quote in it made single -/
  | quoted (text : List Char)
  /-- a run of characters that are no delimiters -/
  | word (text : List Char)
  deriving DecidableEq, Repr

/-- The literal behind an opening quote, and what follows its closing quote. -/
def readQuoted : List Char → Option (List Char × List Char)
  | [] => none
  | '\'' :: '\'' :: rest => (readQuoted rest).map fun (text, rest) => ('\'' :: text, rest)
  | c :: rest =>
      if c = '\'' then some ([], rest)
      else (readQuoted rest).map fun (text, rest) => (c :: text, rest)

/-- The next lexeme, and what follows it. -/
def nextLexeme? : List Char → Option (Lexeme × List Char)
  | [] => none
  | c :: rest =>
      if c.isWhitespace then nextLexeme? rest
      else if c = '(' then some (.opening, rest)
      else if c = ')' then some (.closing, rest)
      else if c = ',' then some (.comma, rest)
      else if c = '\'' then (readQuoted rest).map fun (text, rest) => (.quoted text, rest)
      else some (.word (c :: rest.takeWhile (!isDelimiter ·)), rest.dropWhile (!isDelimiter ·))

/-- A word that a lexeme can be. -/
def IsWord (text : List Char) : Prop :=
  text ≠ [] ∧ ∀ c ∈ text, isDelimiter c = false

instance (text : List Char) : Decidable (IsWord text) :=
  decidable_of_iff (text.isEmpty = false ∧ text.all (!isDelimiter ·) = true) (by simp [IsWord])

/-- A class of characters with no delimiter in it. -/
theorem isDelimiter_eq_false {p : Char → Bool} {c : Char} (h : p c = true)
    (none_ : [' ', '\t', '\r', '\n', '(', ')', ',', '\''].any p = false) :
    isDelimiter c = false := by
  cases delimiter : isDelimiter c with
  | false => rfl
  | true =>
      have member : c ∈ [' ', '\t', '\r', '\n', '(', ')', ',', '\''] := by
        simpa [isDelimiter, Char.isWhitespace, or_assoc] using delimiter
      rw [List.any_eq_true.mpr ⟨c, member, h⟩] at none_
      cases none_

theorem isWord_of_all {p : Char → Bool} {text : List Char} (nonempty : text ≠ [])
    (all : text.all p = true)
    (none_ : [' ', '\t', '\r', '\n', '(', ')', ',', '\''].any p = false) : IsWord text :=
  ⟨nonempty, fun _ member => isDelimiter_eq_false (List.all_eq_true.mp all _ member) none_⟩

/-- A text before which a word ends. -/
def EndsWord (rest : List Char) : Prop :=
  ∀ c ∈ rest.head?, isDelimiter c = true

theorem nextLexeme?_blank (rest : List Char) : nextLexeme? (' ' :: rest) = nextLexeme? rest :=
  rfl

theorem nextLexeme?_word {text rest : List Char} (word : IsWord text) (ends : EndsWord rest) :
    nextLexeme? (text ++ rest) = some (.word text, rest) := by
  obtain ⟨nonempty, plain⟩ := word
  obtain _ | ⟨c, text⟩ := text
  · exact absurd rfl nonempty
  · have head := plain c List.mem_cons_self
    have tail : ∀ d ∈ text, (!isDelimiter d) = true := fun d member => by
      rw [plain d (List.mem_cons_of_mem _ member)]
      rfl
    have stop : rest.takeWhile (!isDelimiter ·) = [] ∧ rest.dropWhile (!isDelimiter ·) = rest := by
      cases rest with
      | nil => exact ⟨rfl, rfl⟩
      | cons d rest => simp [ends d rfl]
    simp only [isDelimiter, Bool.or_eq_false_iff, decide_eq_false_iff_not] at head
    obtain ⟨⟨⟨⟨blank, opening⟩, closing⟩, comma⟩, quote⟩ := head
    rw [List.cons_append, nextLexeme?, if_neg (by simp [blank]), if_neg opening, if_neg closing,
      if_neg comma, if_neg quote, List.takeWhile_append_of_pos tail,
      List.dropWhile_append_of_pos tail, stop.1, stop.2, List.append_nil]

/-- A literal whose quotes were doubled ends where it was ended. -/
theorem readQuoted_doubleQuotes (text : List Char) {rest : List Char}
    (ends : rest.head? ≠ some '\'') :
    readQuoted (doubleQuotes text ++ '\'' :: rest) = some (text, rest) := by
  induction text with
  | nil =>
      cases rest with
      | nil => rfl
      | cons c rest =>
          have other : c ≠ '\'' := fun same => ends (by rw [same]; rfl)
          rw [doubleQuotes, List.nil_append, readQuoted, if_pos rfl]
          intro _ _ same
          exact other (List.cons.inj same).1
  | cons c text ih =>
      by_cases quote : c = '\''
      · subst quote
        rw [doubleQuotes, if_pos rfl, List.cons_append, List.cons_append, readQuoted, ih]
        rfl
      · rw [doubleQuotes, if_neg quote, List.cons_append, readQuoted, if_neg quote, ih]
        · rfl
        · intro _ same
          exact absurd same quote

/-! ## Lists -/

/-- An item of a list as it is read. -/
inductive Item where
  | quoted (text : List Char)
  | bare (text : List Char)
  deriving DecidableEq, Repr

/-- An item, and what follows it. -/
def readItem (text : List Char) : Option (Item × List Char) :=
  match nextLexeme? text with
  | some (.quoted text, rest) => some (.quoted text, rest)
  | some (.word text, rest) => some (.bare text, rest)
  | _ => none

theorem readItem_blank (rest : List Char) : readItem (' ' :: rest) = readItem rest :=
  rfl

/-- The items behind an item, each after a comma, up to the closing parenthesis, and
what follows it.  Fewer than `fuel` items are read. -/
def readMore : Nat → List Char → Option (List Item × List Char)
  | 0, _ => none
  | fuel + 1, text =>
      match nextLexeme? text with
      | some (.closing, rest) => some ([], rest)
      | some (.comma, rest) => do
          let (item, rest) ← readItem rest
          let (items, rest) ← readMore fuel rest
          some (item :: items, rest)
      | _ => none

/-- A list in parentheses, and what follows it. -/
def readList (text : List Char) : Option (List Item × List Char) :=
  match nextLexeme? text with
  | some (.opening, inner) =>
      match nextLexeme? inner with
      | some (.closing, rest) => some ([], rest)
      | _ => do
          let (item, rest) ← readItem inner
          let (items, rest) ← readMore rest.length rest
          some (item :: items, rest)
  | _ => none

namespace Item

/-- An item as SQL writes it. -/
def chars : Item → List Char
  | .quoted text => '\'' :: doubleQuotes text ++ ['\'']
  | .bare text => text

/-- Bare items are words; quoted ones may be any text. -/
def Legible : Item → Prop
  | .quoted _ => True
  | .bare text => IsWord text

/-- A written list behind its first item. -/
def moreChars : List Item → List Char
  | [] => [' ', ')']
  | i :: more => ',' :: ' ' :: i.chars ++ moreChars more

/-- A written list. -/
def listChars : List Item → List Char
  | [] => ['(', ' ', ')']
  | i :: more => '(' :: ' ' :: i.chars ++ moreChars more

end Item

theorem readItem_chars {i : Item} (legible : i.Legible) {rest : List Char}
    (ends : EndsWord rest) (other : rest.head? ≠ some '\'') :
    readItem (i.chars ++ rest) = some (i, rest) := by
  cases i with
  | quoted text =>
      have shape : (Item.quoted text).chars ++ rest =
          '\'' :: (doubleQuotes text ++ '\'' :: rest) := by
        simp [Item.chars]
      have read : nextLexeme? ('\'' :: (doubleQuotes text ++ '\'' :: rest)) =
          some (.quoted text, rest) :=
        congrArg (Option.map _) (readQuoted_doubleQuotes text other)
      rw [shape, readItem, read]
  | bare text =>
      rw [readItem, Item.chars, nextLexeme?_word legible ends]

theorem moreChars_head (items : List Item) (rest : List Char) :
    (Item.moreChars items ++ rest).head? = some ' ' ∨
      (Item.moreChars items ++ rest).head? = some ',' := by
  cases items with
  | nil => exact .inl rfl
  | cons i more => exact .inr rfl

theorem endsWord_moreChars (items : List Item) (rest : List Char) :
    EndsWord (Item.moreChars items ++ rest) := by
  intro c first
  rcases moreChars_head items rest with h | h <;> rw [h] at first <;> cases first <;> rfl

theorem moreChars_head_ne_quote (items : List Item) (rest : List Char) :
    (Item.moreChars items ++ rest).head? ≠ some '\'' := by
  rcases moreChars_head items rest with h | h <;> rw [h] <;> decide

theorem length_lt_moreChars (items : List Item) : items.length < (Item.moreChars items).length := by
  induction items with
  | nil => decide
  | cons i more ih =>
      simp only [Item.moreChars, List.length_cons, List.length_append]
      omega

theorem readMore_moreChars (items : List Item) (legible : ∀ i ∈ items, i.Legible)
    (rest : List Char) :
    ∀ fuel, items.length < fuel →
      readMore fuel (Item.moreChars items ++ rest) = some (items, rest) := by
  induction items with
  | nil =>
      intro fuel enough
      obtain ⟨fuel, rfl⟩ := Nat.exists_eq_succ_of_ne_zero (Nat.ne_zero_of_lt enough)
      rfl
  | cons i more ih =>
      intro fuel enough
      obtain ⟨fuel, rfl⟩ := Nat.exists_eq_succ_of_ne_zero (Nat.ne_zero_of_lt enough)
      have shape : Item.moreChars (i :: more) ++ rest =
          ',' :: ' ' :: (i.chars ++ (Item.moreChars more ++ rest)) := by
        simp [Item.moreChars]
      have comma : nextLexeme? (',' :: ' ' :: (i.chars ++ (Item.moreChars more ++ rest))) =
          some (.comma, ' ' :: (i.chars ++ (Item.moreChars more ++ rest))) := rfl
      have item := readItem_chars (legible i List.mem_cons_self) (endsWord_moreChars more rest)
        (moreChars_head_ne_quote more rest)
      rw [shape, readMore, comma]
      simp only [readItem_blank, item, Option.bind_eq_bind, Option.bind_some]
      rw [ih (fun j member => legible j (List.mem_cons_of_mem _ member)) fuel
        (Nat.lt_of_succ_lt_succ enough)]
      rfl

/-- **A written list reads as its items, and reading ends behind it.** -/
theorem readList_listChars (items : List Item) (legible : ∀ i ∈ items, i.Legible)
    (rest : List Char) :
    readList (Item.listChars items ++ rest) = some (items, rest) := by
  cases items with
  | nil => rfl
  | cons i more =>
      have shape : Item.listChars (i :: more) ++ rest =
          '(' :: ' ' :: (i.chars ++ (Item.moreChars more ++ rest)) := by
        simp [Item.listChars]
      have opening : nextLexeme? ('(' :: ' ' :: (i.chars ++ (Item.moreChars more ++ rest))) =
          some (.opening, ' ' :: (i.chars ++ (Item.moreChars more ++ rest))) := rfl
      have item := readItem_chars (legible i List.mem_cons_self) (endsWord_moreChars more rest)
        (moreChars_head_ne_quote more rest)
      have items := readMore_moreChars more
        (fun j member => legible j (List.mem_cons_of_mem _ member)) rest
        (Item.moreChars more ++ rest).length (by
          have := length_lt_moreChars more
          rw [List.length_append]
          omega)
      rw [shape, readList, opening]
      simp only [nextLexeme?_blank, readItem_blank]
      split
      · rename_i closing
        rw [readItem, closing] at item
        cases item
      · simp only [item, items, Option.bind_eq_bind, Option.bind_some]

/-! ## What a literal is read as -/

def Literal.item : Literal → Item
  | .quoted text => .quoted (defuseChars text)
  | .bare text => .bare text

theorem Literal.chars_item (l : Literal) : l.item.chars = l.chars := by
  cases l <;> rfl

/-- What holds of each literal and is kept when a comma joins two texts holds of them all
together. -/
theorem joinLiterals_induction {P : List Char → Prop} (empty : P [])
    (comma : ∀ {front back}, P front → P back → P (front ++ ',' :: ' ' :: back)) {ls : List Literal}
    (each : ∀ l ∈ ls, P l.chars) : P (joinLiterals ls) := by
  fun_induction joinLiterals ls with
  | case1 => exact empty
  | case2 l => exact each l List.mem_cons_self
  | case3 l rest _ ih =>
      have behind := ih fun other member => each other (List.mem_cons_of_mem _ member)
      exact comma (each l List.mem_cons_self) behind

/-- Literals are written the way their items are. -/
theorem listChars_map_item (ls : List Literal) :
    Item.listChars (ls.map Literal.item) = listChars ls := by
  have joined : ∀ (l : Literal) (ls : List Literal),
      joinLiterals (l :: ls) ++ [' ', ')'] = l.chars ++ Item.moreChars (ls.map Literal.item) := by
    intro l ls
    induction ls generalizing l with
    | nil => rfl
    | cons next ls ih =>
        have step : joinLiterals (l :: next :: ls) =
            l.chars ++ ',' :: ' ' :: joinLiterals (next :: ls) := rfl
        rw [step, List.append_assoc, List.cons_append, List.cons_append, ih, List.map_cons,
          Item.moreChars, next.chars_item]
        rfl
  cases ls with
  | nil => rfl
  | cons l ls =>
      rw [listChars, List.isEmpty_cons, if_neg Bool.false_ne_true, List.cons_append,
        List.cons_append, joined, List.map_cons, Item.listChars, l.chars_item]
      rfl

/-! ## The text of a number -/

/-- The characters that numbers and truth values are written with. -/
def isNumberChar (c : Char) : Bool :=
  c.isDigit || ['-', '.', 'N', 'a', 'i', 'n', 'f', 't', 'r', 'u', 'e', 'l', 's'].contains c

theorem all_isNumberChar_toDigits (n : Nat) : (Nat.toDigits 10 n).all isNumberChar = true := by
  rw [List.all_eq_true]
  intro c member
  rw [isNumberChar, Nat.isDigit_of_mem_toDigits (by decide) (by decide) member]
  rfl

theorem all_isNumberChar_positional {digits : List Char} (place : Int)
    (plain : digits.all isNumberChar = true) :
    (Decimal.positionalChars digits place false).all isNumberChar = true := by
  have part : ∀ n, (digits.take n).all isNumberChar = true ∧
      (digits.drop n).all isNumberChar = true := by
    intro n
    rw [← Bool.and_eq_true, ← List.all_append, List.take_append_drop]
    exact plain
  have point : isNumberChar '.' = true := by decide
  have zero : isNumberChar '0' = true := by decide
  unfold Decimal.positionalChars
  split
  · simp [plain, zero]
  · simp only []
    split
    · simp [part, point]
    · simp [plain, point, zero]

theorem positional_ne_nil {digits : List Char} (place : Int) (nonempty : digits ≠ []) :
    Decimal.positionalChars digits place false ≠ [] := by
  unfold Decimal.positionalChars
  split
  · simp [nonempty]
  · simp only []
    split <;> simp

/-- A double among other text is written as one word. -/
theorem isNumber_plain_chars (b : Decimal.Binary64) :
    Decimal.Layout.plain.chars b ≠ [] ∧
      (Decimal.Layout.plain.chars b).all isNumberChar = true := by
  have minus : isNumberChar '-' = true := by decide
  cases b with
  | notANumber => decide
  | infinite negative => cases negative <;> decide
  | finite negative significand exponent =>
      have unsigned : ∃ digits place, digits ≠ [] ∧ digits.all isNumberChar = true ∧
          (if significand = 0 then Decimal.positionalChars ['0'] 0 false
            else Decimal.Layout.plain.unsigned (Decimal.shortest .up significand exponent)) =
              Decimal.positionalChars digits place false := by
        split
        · exact ⟨['0'], 0, by decide, by decide, rfl⟩
        · exact ⟨_, _, Nat.toDigits_ne_nil, all_isNumberChar_toDigits _, rfl⟩
      obtain ⟨digits, place, nonempty, plain, shape⟩ := unsigned
      have chars : Decimal.Layout.plain.chars (.finite negative significand exponent) =
          (if negative then ['-'] else []) ++ Decimal.positionalChars digits place false := by
        rw [← shape]
        rfl
      rw [chars]
      refine ⟨?_, ?_⟩
      · simp [positional_ne_nil place nonempty]
      · rw [List.all_append, all_isNumberChar_positional place plain]
        cases negative <;> simp [minus]

theorem isNumber_intChars (n : Int64) :
    Value.intChars n ≠ [] ∧ (Value.intChars n).all isNumberChar = true := by
  unfold Value.intChars Int.repr
  cases n.toInt with
  | ofNat m =>
      simp only [Nat.toList_repr]
      exact ⟨Nat.toDigits_ne_nil, all_isNumberChar_toDigits m⟩
  | negSucc m =>
      simp only [String.toList_append, Nat.toList_repr]
      refine ⟨by simp, ?_⟩
      rw [List.all_append, all_isNumberChar_toDigits]
      decide

/-- A value that is written bare is a word. -/
theorem isNumber_chars {v : Value} (plain : LiteralKind.of? v = some .plain) :
    v.chars ≠ [] ∧ v.chars.all isNumberChar = true := by
  cases v with
  | bool b => cases b <;> decide
  | int n =>
      rw [Value.chars]
      exact isNumber_intChars n
  | float x =>
      rw [Value.chars]
      exact isNumber_plain_chars _
  | _ => cases plain

theorem isWord_chars {v : Value} (plain : LiteralKind.of? v = some .plain) : IsWord v.chars := by
  obtain ⟨nonempty, all⟩ := isNumber_chars plain
  exact isWord_of_all nonempty all (by decide)

/-! ## Lists of values -/

/-- The items of a list of values that are to be seen, by the kind of the first that is
not null: texts that are not blank and names between quotes, numbers and truth values
bare. -/
def shownItems (items : List Value) : List Item :=
  let given := items.filter (!·.isNull)
  match given.head?.map Value.kind with
  | none => []
  | some .string | some .date =>
      (given.filter fun v => !(Text.trim v.chars).isEmpty).map fun v =>
        .quoted (defuse v.text).toList
  | some .enum => given.map fun v => .quoted (defuse v.text).toList
  | some _ => given.map fun v => .bare v.chars

theorem defuse_text (v : Value) : (defuse v.text).toList = defuseChars v.chars := by
  rw [defuse, Value.text, String.toList_ofList, String.toList_ofList]

/-- Picking out and writing items can be done at one go. -/
theorem map_filterMap_eq_map_filter {α β γ : Type} {f : α → Option β} {g : β → γ}
    {p : α → Bool} {h : α → γ} (each : ∀ a, (f a).map g = if p a then some (h a) else none)
    (l : List α) : (l.filterMap f).map g = (l.filter p).map h := by
  induction l with
  | nil => rfl
  | cons a l ih =>
      have first := each a
      cases given : f a with
      | none =>
          rw [given] at first
          have absent : ¬ p a = true := fun shown => by simp [shown] at first
          rw [List.filterMap_cons_none given, ih, List.filter_cons_of_neg absent]
      | some b =>
          rw [given] at first
          have shown : p a = true := by
            cases shown : p a with
            | true => rfl
            | false => simp [shown] at first
          rw [if_pos shown] at first
          rw [List.filterMap_cons_some given, List.filter_cons_of_pos shown, List.map_cons,
            List.map_cons, ih, Option.some.inj first]

theorem literal?_text_items (items : List Value) :
    (items.filterMap LiteralKind.text.literal?).map Literal.item =
      ((items.filter (!·.isNull)).filter fun v => !(Text.trim v.chars).isEmpty).map fun v =>
        .quoted (defuse v.text).toList := by
  rw [List.filter_filter]
  refine map_filterMap_eq_map_filter (fun v => ?_) items
  rw [defuse_text]
  cases given : v.isNull with
  | true =>
      rw [Value.isNull_iff.mp given]
      rfl
  | false =>
      have literal : LiteralKind.text.literal? v =
          if (Text.trim v.chars).isEmpty then none else some (.quoted v.chars) := by
        cases v <;> first | rfl | cases given
      rw [literal]
      cases (Text.trim v.chars).isEmpty <;> rfl

theorem literal?_enum_items (items : List Value) :
    (items.filterMap LiteralKind.enum.literal?).map Literal.item =
      (items.filter (!·.isNull)).map fun v => .quoted (defuse v.text).toList := by
  refine map_filterMap_eq_map_filter (fun v => ?_) items
  rw [defuse_text]
  cases v <;> rfl

theorem literal?_plain_items (items : List Value) :
    (items.filterMap LiteralKind.plain.literal?).map Literal.item =
      (items.filter (!·.isNull)).map fun v => .bare v.chars :=
  map_filterMap_eq_map_filter (fun v => by cases v <;> rfl) items

/-- Only numbers and truth values are written bare. -/
theorem plain_of_bare {kind : LiteralKind} {v : Value} (accepted : kind.accepts v = true)
    {text : List Char} (written : kind.literal? v = some (.bare text)) :
    LiteralKind.of? v = some .plain ∧ text = v.chars := by
  cases kind <;> cases v <;> simp [LiteralKind.literal?, LiteralKind.accepts,
    LiteralKind.of?] at written accepted ⊢ <;> exact written.symm

theorem legible_of_literal? {kind : LiteralKind} {v : Value} (accepted : kind.accepts v = true)
    {l : Literal} (written : kind.literal? v = some l) : l.item.Legible := by
  cases l with
  | quoted text => trivial
  | bare text =>
      obtain ⟨plain, rfl⟩ := plain_of_bare accepted written
      exact isWord_chars plain

/-- Every literal of a list is one of its items as its kind writes it. -/
theorem exists_item_of_literals {key : String} {items : List Value} {ls : List Literal}
    (written : literals key items = .ok ls) :
    ∀ l ∈ ls, ∃ kind : LiteralKind, ∃ v ∈ items,
      kind.accepts v = true ∧ kind.literal? v = some l := by
  unfold literals at written
  split at written
  · cases written
    simp
  · split at written
    · cases written
    · rename_i kind _
      obtain ⟨accepted, rfl⟩ := LiteralKind.literals_eq_ok_iff.mp written
      intro l member
      obtain ⟨v, inItems, found⟩ := List.mem_filterMap.mp member
      exact ⟨kind, v, inItems, accepted v inItems, found⟩

/-- The literals of a list are read as its shown items. -/
theorem literals_items {key : String} {items : List Value} {ls : List Literal}
    (written : literals key items = .ok ls) :
    ls.map Literal.item = shownItems items ∧ ∀ i ∈ shownItems items, i.Legible := by
  have legible : ∀ l ∈ ls, l.item.Legible := by
    intro l member
    obtain ⟨kind, v, -, accepted, found⟩ := exists_item_of_literals written l member
    exact legible_of_literal? accepted found
  suffices read : ls.map Literal.item = shownItems items by
    refine ⟨read, fun i member => ?_⟩
    rw [← read] at member
    obtain ⟨l, inList, rfl⟩ := List.mem_map.mp member
    exact legible l inList
  unfold literals at written
  have head : (items.filter (!·.isNull)).head? = items.find? (!·.isNull) := List.head?_filter
  cases found : items.find? (!·.isNull) with
  | none =>
      rw [found] at written head
      cases written
      simp only [shownItems, head]
      rfl
  | some first =>
      rw [found] at written head
      cases kind : LiteralKind.of? first with
      | none => simp [kind] at written
      | some kind_ =>
          simp only [kind, LiteralKind.literals_eq_ok_iff] at written
          obtain ⟨-, rfl⟩ := written
          simp only [shownItems, head, Option.map_some]
          cases first with
          | null => cases kind
          | array items => cases kind
          | string s =>
              cases kind
              exact literal?_text_items items
          | date i =>
              cases kind
              exact literal?_text_items items
          | enum name =>
              cases kind
              exact literal?_enum_items items
          | _ =>
              cases kind
              exact literal?_plain_items items

/-- **A list of values is read back, and nothing behind it.**  Whatever the values and
whatever text follows, SQL reads the shown items in their order and stops behind the
list's own parenthesis; it reads no item exactly when none was written. -/
theorem readList_renderList {key : String} {items : List Value} {written : String}
    (rendered : renderList key items = .ok written) (rest : List Char) :
    readList (written.toList ++ rest) = some (shownItems items, rest) ∧
      (shownItems items = [] ↔ written = "( )") := by
  rw [renderList] at rendered
  cases found : literals key items with
  | error f => simp [found, Except.map] at rendered
  | ok ls =>
      simp only [found, Except.map, Except.ok.injEq] at rendered
      subst rendered
      obtain ⟨shown, legible⟩ := literals_items found
      have read : ∀ rest, readList ((String.ofList (listChars ls)).toList ++ rest) =
          some (shownItems items, rest) := by
        intro rest
        rw [String.toList_ofList, ← listChars_map_item, shown, readList_listChars _ legible]
      refine ⟨read rest, ?_, ?_⟩
      · intro none_
        rw [none_, List.map_eq_nil_iff] at shown
        rw [shown]
        rfl
      · intro empty
        have alone := read []
        rw [empty] at alone
        exact (Prod.mk.inj (Option.some.inj alone)).1.symm

/-- Quotes, commas and parentheses of an item stay inside it, and the text behind the
list is not looked at. -/
theorem readList_renderList_hostile :
    renderList "status" [.null, .string "x'); drop table t; --", .string " ", .string "', '"] =
        .ok "( 'x'')    table t  --', ''', ''' )" ∧
      readList ("( 'x'')    table t  --', ''', ''' )".toList ++ "') OR 'a' = 'a".toList) =
        some ([.quoted "x')    table t  --".toList, .quoted "', '".toList],
          "') OR 'a' = 'a".toList) :=
  ⟨rfl, (@readList_renderList "status"
    [.null, .string "x'); drop table t; --", .string " ", .string "', '"] _ rfl
    "') OR 'a' = 'a".toList).1⟩

end Criteria
