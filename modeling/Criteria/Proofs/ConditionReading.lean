/-
# Criteria.Proofs.ConditionReading -- conditions as SQL reads them

A condition is a list of clauses, each but the first behind `AND` or `OR`.  A clause is a
condition in parentheses, or a key with a test: a comparison with a placeholder, a
membership with its list, or a null check.  `Clause.charsAll` writes a condition with one
blank between any two parts, and `readCondition` reads one by recursive descent.

A key may be any word, also one that SQL uses; only its place makes it a key.
`readCondition_charsAll` says that reading undoes writing, so a text writes one
condition at most (`charsAll_inj`).
-/
import Criteria.Predicate
import Criteria.Proofs.ListReading
import Criteria.Writer

namespace Criteria

set_option autoImplicit false

/-! ## Conditions -/

/-- What is said of a key. -/
inductive Test where
  | compare (op : Comparison) (placeholder : List Char)
  | member (negated : Bool) (items : List Item)
  | nullCheck (negated : Bool)
  deriving DecidableEq, Repr

/-- A part of a condition, with what joins it to the part before it. -/
inductive Clause where
  | plain (joiner : Conjunction) (key : List Char) (test : Test)
  | group (joiner : Conjunction) (clauses : List Clause)

namespace Clause

def joiner : Clause → Conjunction
  | .plain joiner _ _ => joiner
  | .group joiner _ => joiner

end Clause

/-! ## Writing -/

def Test.chars : Test → List Char
  | .compare op placeholder => beside ' ' op.symbol.toList placeholder
  | .member negated items =>
      beside ' ' (Predicate.member negated).symbol.toList (Item.listChars items)
  | .nullCheck negated => (Predicate.nullCheck negated).symbol.toList

namespace Clause

mutual

/-- A clause as it is written, without its joiner. -/
def bodyChars : Clause → List Char
  | .plain _ key test => beside ' ' key test.chars
  | .group _ clauses => beside ' ' ['('] (beside ' ' (charsAll clauses) [')'])

/-- A condition as it is written. -/
def charsAll : List Clause → List Char
  | [] => []
  | c :: rest => beside ' ' (beside ' ' c.joiner.symbol.toList c.bodyChars) (charsAll rest)

end

end Clause

/-! ## Reading -/

/-- What follows a word, when the text begins with it. -/
def readKeyword (word : String) (text : List Char) : Option (List Char) :=
  match nextLexeme? text with
  | some (.word found, rest) => if found = word.toList then some rest else none
  | _ => none

def comparison? (word : List Char) : Option Comparison :=
  [Comparison.eq, .ne, .gt, .gte, .lt, .lte].find? fun op => op.symbol.toList = word

/-- A question mark, or a dollar sign and digits. -/
def isPlaceholder : List Char → Bool
  | ['?'] => true
  | '$' :: digits => !digits.isEmpty && digits.all Char.isDigit
  | _ => false

/-- A comparison's placeholder, and what follows it. -/
def readPlaceholder (text : List Char) : Option (List Char × List Char) :=
  match nextLexeme? text with
  | some (.word placeholder, rest) =>
      if isPlaceholder placeholder then some (placeholder, rest) else none
  | _ => none

/-- The test that begins with a word, and what follows it. -/
def readTestFrom (word : List Char) (text : List Char) : Option (Test × List Char) :=
  if word = "IN".toList then
    (readList text).map fun (items, rest) => (.member false items, rest)
  else if word = "NOT".toList then
    (readKeyword "IN" text).bind fun text =>
      (readList text).map fun (items, rest) => (.member true items, rest)
  else if word = "IS".toList then
    match readKeyword "NOT" text with
    | some text => (readKeyword "NULL" text).map fun rest => (.nullCheck true, rest)
    | none => (readKeyword "NULL" text).map fun rest => (.nullCheck false, rest)
  else
    (comparison? word).bind fun op =>
      (readPlaceholder text).map fun (placeholder, rest) => (.compare op placeholder, rest)

/-- The test behind a key, and what follows it. -/
def readTest (text : List Char) : Option (Test × List Char) :=
  match nextLexeme? text with
  | some (.word word, rest) => readTestFrom word rest
  | _ => none

/-- `AND` or `OR`, and what follows it. -/
def readJoiner (text : List Char) : Option (Conjunction × List Char) :=
  match readKeyword "AND" text with
  | some rest => some (.and, rest)
  | none => (readKeyword "OR" text).map fun rest => (.or, rest)

mutual

/-- A clause behind its joiner, and what follows it.  Fewer than `fuel` steps are taken
down and along. -/
def readClause : Nat → Conjunction → List Char → Option (Clause × List Char)
  | 0, _, _ => none
  | fuel + 1, joiner, text =>
      match nextLexeme? text with
      | some (.opening, inner) => do
          let (clauses, rest) ← readClauses fuel .none inner
          match nextLexeme? rest with
          | some (.closing, rest) => some (.group joiner clauses, rest)
          | _ => none
      | some (.word key, rest) => do
          let (test, rest) ← readTest rest
          some (.plain joiner key test, rest)
      | _ => none

/-- One clause and those joined to it, and what follows them. -/
def readClauses : Nat → Conjunction → List Char → Option (List Clause × List Char)
  | 0, _, _ => none
  | fuel + 1, joiner, text => do
      let (first, rest) ← readClause fuel joiner text
      match readJoiner rest with
      | none => some ([first], rest)
      | some (next, rest) => do
          let (more, rest) ← readClauses fuel next rest
          some (first :: more, rest)

end

/-- A condition that is the whole of a text, blanks behind it aside. -/
def readCondition (text : List Char) : Option (List Clause) :=
  match readClauses text.length .none text with
  | some (clauses, rest) => if rest.all Char.isWhitespace then some clauses else none
  | none => none

/-! ## Legible conditions -/

def Test.Legible : Test → Prop
  | .compare _ placeholder => IsWord placeholder ∧ isPlaceholder placeholder = true
  | .member _ items => ∀ i ∈ items, i.Legible
  | .nullCheck _ => True

/-- Keys are words, tests are legible, groups are conditions, and just the first clause
of a group is without a joiner. -/
inductive Clause.Legible : List Clause → Prop where
  | nil : Legible []
  | plain {joiner : Conjunction} {key : List Char} {test : Test} {rest : List Clause} :
      IsWord key → test.Legible → (∀ c ∈ rest, c.joiner ≠ .none) → Legible rest →
      Legible (.plain joiner key test :: rest)
  | group {joiner : Conjunction} {clauses rest : List Clause} :
      clauses.head?.map Clause.joiner = some .none → Legible clauses →
      (∀ c ∈ rest, c.joiner ≠ .none) → Legible rest → Legible (.group joiner clauses :: rest)

/-! ## Reading what was written -/

theorem endsWord_blank (rest : List Char) : EndsWord (' ' :: rest) := by
  rintro c ⟨⟩
  rfl

theorem readTest_blank (rest : List Char) : readTest (' ' :: rest) = readTest rest :=
  rfl

theorem listChars_ne_nil (items : List Item) : Item.listChars items ≠ [] := by
  cases items <;> exact List.cons_ne_nil _ _

theorem isWord_symbol (op : Comparison) : IsWord op.symbol.toList := by
  cases op <;> decide

theorem test_chars_ne_nil (test : Test) : test.chars ≠ [] := by
  cases test with
  | compare op placeholder =>
      intro empty
      exact (isWord_symbol op).1 (beside_eq_nil_iff.mp empty).1
  | member negated items =>
      intro empty
      exact listChars_ne_nil items (beside_eq_nil_iff.mp empty).2
  | nullCheck negated => cases negated <;> decide

theorem readKeyword_blank (word : String) (rest : List Char) :
    readKeyword word (' ' :: rest) = readKeyword word rest :=
  rfl

theorem readKeyword_word {word found : String} (isWord : IsWord found.toList) {rest : List Char}
    (ends : EndsWord rest) :
    readKeyword word (found.toList ++ rest) =
      if found.toList = word.toList then some rest else none := by
  rw [readKeyword, nextLexeme?_word isWord ends]

theorem readTest_word {word : List Char} (isWord : IsWord word) {rest : List Char}
    (ends : EndsWord rest) : readTest (word ++ rest) = readTestFrom word rest := by
  rw [readTest, nextLexeme?_word isWord ends]

theorem readTestFrom_symbol (op : Comparison) (text : List Char) :
    readTestFrom op.symbol.toList text =
      (readPlaceholder text).map fun (placeholder, rest) => (.compare op placeholder, rest) := by
  cases op <;> rfl

theorem readPlaceholder_word {placeholder : List Char} (word : IsWord placeholder)
    (isPlaceholder_ : isPlaceholder placeholder = true) {rest : List Char} (ends : EndsWord rest) :
    readPlaceholder (' ' :: (placeholder ++ rest)) = some (placeholder, rest) := by
  rw [readPlaceholder, nextLexeme?_blank, nextLexeme?_word word ends]
  exact if_pos isPlaceholder_

/-- A test is read back from behind its key. -/
theorem readTest_chars {test : Test} (legible : test.Legible) {rest : List Char}
    (ends : EndsWord rest) : readTest (test.chars ++ rest) = some (test, rest) := by
  cases test with
  | compare op placeholder =>
      obtain ⟨word, isPlaceholder_⟩ := legible
      have shape : (Test.compare op placeholder).chars ++ rest =
          op.symbol.toList ++ ' ' :: (placeholder ++ rest) := by
        rw [Test.chars, beside_of_ne_nil ' ' (isWord_symbol op).1 word.1, List.append_assoc]
        rfl
      rw [shape, readTest_word (isWord_symbol op) (endsWord_blank _), readTestFrom_symbol,
        readPlaceholder_word word isPlaceholder_ ends]
      rfl
  | member negated items =>
      have list : readList (' ' :: (Item.listChars items ++ rest)) = some (items, rest) :=
        readList_listChars items legible rest
      cases negated with
      | false =>
          have shape : (Test.member false items).chars ++ rest =
              "IN".toList ++ ' ' :: (Item.listChars items ++ rest) := by
            rw [Test.chars, beside_of_ne_nil ' ' (by decide) (listChars_ne_nil items),
              List.append_assoc]
            rfl
          rw [shape, readTest_word (by decide) (endsWord_blank _), readTestFrom,
            if_pos rfl, list]
          rfl
      | true =>
          have shape : (Test.member true items).chars ++ rest =
              "NOT".toList ++ ' ' :: ("IN".toList ++ ' ' :: (Item.listChars items ++ rest)) := by
            rw [Test.chars, beside_of_ne_nil ' ' (by decide) (listChars_ne_nil items),
              List.append_assoc]
            rfl
          have keyword : readKeyword "IN" ("IN".toList ++ ' ' :: (Item.listChars items ++ rest)) =
              some (' ' :: (Item.listChars items ++ rest)) :=
            readKeyword_word (by decide) (endsWord_blank _)
          rw [shape, readTest_word (by decide) (endsWord_blank _), readTestFrom,
            if_neg (by decide), if_pos rfl, readKeyword_blank, keyword, Option.bind_some, list]
          rfl
  | nullCheck negated =>
      have keyword : readKeyword "NULL" ("NULL".toList ++ rest) = some rest :=
        readKeyword_word (by decide) ends
      cases negated with
      | false =>
          have shape : (Test.nullCheck false).chars ++ rest =
              "IS".toList ++ ' ' :: ("NULL".toList ++ rest) := rfl
          have other : readKeyword "NOT" ("NULL".toList ++ rest) = none :=
            readKeyword_word (by decide) ends
          rw [shape, readTest_word (by decide) (endsWord_blank _), readTestFrom,
            if_neg (by decide), if_neg (by decide), if_pos rfl, readKeyword_blank,
            readKeyword_blank, other, keyword]
          rfl
      | true =>
          have shape : (Test.nullCheck true).chars ++ rest =
              "IS".toList ++ ' ' :: ("NOT".toList ++ ' ' :: ("NULL".toList ++ rest)) := rfl
          have negation : readKeyword "NOT" ("NOT".toList ++ ' ' :: ("NULL".toList ++ rest)) =
              some (' ' :: ("NULL".toList ++ rest)) :=
            readKeyword_word (by decide) (endsWord_blank _)
          have last : readKeyword "NULL" (' ' :: ("NULL".toList ++ rest)) = some rest := keyword
          rw [shape, readTest_word (by decide) (endsWord_blank _), readTestFrom,
            if_neg (by decide), if_neg (by decide), if_pos rfl, readKeyword_blank, negation]
          simp only [last, Option.map_some]

theorem readClause_blank (fuel : Nat) (joiner : Conjunction) (text : List Char) :
    readClause fuel joiner (' ' :: text) = readClause fuel joiner text := by
  cases fuel <;> rfl

theorem readClauses_blank (fuel : Nat) (joiner : Conjunction) (text : List Char) :
    readClauses fuel joiner (' ' :: text) = readClauses fuel joiner text := by
  cases fuel with
  | zero => rfl
  | succ fuel => rw [readClauses, readClauses, readClause_blank]

theorem readJoiner_symbol {joiner : Conjunction} (joins : joiner ≠ .none) (text : List Char) :
    readJoiner (' ' :: (joiner.symbol.toList ++ ' ' :: text)) = some (joiner, ' ' :: text) := by
  cases joiner with
  | none => exact absurd rfl joins
  | _ => rfl

/-- A text before which a condition ends. -/
def EndsCondition (rest : List Char) : Prop :=
  EndsWord rest ∧ readJoiner rest = none

/-- A condition as it is written, without a joiner before it. -/
def Clause.ledChars : List Clause → List Char
  | [] => []
  | c :: more => beside ' ' c.bodyChars (charsAll more)

/-- The clauses are read back from behind the first joiner. -/
def Clause.ReadBack : List Clause → Prop
  | [] => True
  | c :: more => ∀ fuel rest, EndsCondition rest → (ledChars (c :: more)).length ≤ fuel →
      readClauses fuel c.joiner (ledChars (c :: more) ++ rest) = some (c :: more, rest)

namespace Clause

theorem charsAll_cons {c : Clause} {more : List Clause} (joins : c.joiner ≠ .none)
    (some_ : c.bodyChars ≠ []) :
    charsAll (c :: more) = c.joiner.symbol.toList ++ ' ' :: ledChars (c :: more) := by
  have symbol : c.joiner.symbol.toList ≠ [] := by
    cases joiner : c.joiner with
    | none => exact absurd joiner joins
    | _ => exact List.cons_ne_nil _ _
  have led : ledChars (c :: more) ≠ [] := fun empty => some_ (beside_eq_nil_iff.mp empty).1
  rw [charsAll, beside_assoc]
  exact beside_of_ne_nil ' ' symbol led

theorem charsAll_of_led {c : Clause} {more : List Clause} (led : c.joiner = .none) :
    charsAll (c :: more) = ledChars (c :: more) := by
  rw [charsAll, led]
  rfl

theorem bodyChars_plain {joiner : Conjunction} {key : List Char} (word : IsWord key)
    (test : Test) : (plain joiner key test).bodyChars = key ++ ' ' :: test.chars := by
  rw [bodyChars]
  exact beside_of_ne_nil ' ' word.1 (test_chars_ne_nil test)

theorem bodyChars_ne_nil {c : Clause} {rest : List Clause} (legible : Legible (c :: rest)) :
    c.bodyChars ≠ [] := by
  cases legible with
  | plain word _ _ _ =>
      rw [bodyChars_plain word]
      exact List.append_ne_nil_of_left_ne_nil word.1 _
  | group _ _ _ _ =>
      rw [bodyChars]
      intro empty
      cases (beside_eq_nil_iff.mp empty).1

/-- A clause that is read back, and clauses that are, are read back together. -/
theorem readBack_cons {c : Clause} {more : List Clause} (legible : Legible (c :: more))
    (joined : ∀ d ∈ more, d.joiner ≠ .none)
    (one : ∀ fuel rest, EndsWord rest → c.bodyChars.length ≤ fuel + 1 →
      readClause fuel c.joiner (c.bodyChars ++ rest) = some (c, rest))
    (others : Legible more) (after : ReadBack more) : ReadBack (c :: more) := by
  intro fuel rest ends enough
  have some_ := bodyChars_ne_nil legible
  have positive : 0 < c.bodyChars.length := List.length_pos_iff.mpr some_
  cases more with
  | nil =>
      rw [ledChars, charsAll, beside_nil_right] at enough ⊢
      obtain ⟨fuel, rfl⟩ := Nat.exists_eq_succ_of_ne_zero (by omega : fuel ≠ 0)
      rw [readClauses, one fuel rest ends.1 enough]
      simp only [Option.bind_eq_bind, Option.bind_some, ends.2]
  | cons d more =>
      have joins := joined d List.mem_cons_self
      have next := bodyChars_ne_nil others
      have shape : ledChars (c :: d :: more) =
          c.bodyChars ++ ' ' :: (d.joiner.symbol.toList ++ ' ' :: ledChars (d :: more)) := by
        rw [ledChars, charsAll_cons joins next]
        exact beside_of_ne_nil ' ' some_ (by simp)
      rw [shape] at enough ⊢
      simp only [List.length_append, List.length_cons] at enough
      obtain ⟨fuel, rfl⟩ := Nat.exists_eq_succ_of_ne_zero (by omega : fuel ≠ 0)
      -- The joiner between its blanks pays for the step from one clause to the next.
      have first := one fuel
        (' ' :: (d.joiner.symbol.toList ++ ' ' :: (ledChars (d :: more) ++ rest)))
        (endsWord_blank _) (by omega)
      have others := after fuel rest ends (by omega)
      have text : c.bodyChars ++ ' ' :: (d.joiner.symbol.toList ++ ' ' :: ledChars (d :: more)) ++
          rest = c.bodyChars ++ ' ' :: (d.joiner.symbol.toList ++ ' ' ::
            (ledChars (d :: more) ++ rest)) := by
        simp
      rw [text, readClauses, first]
      simp only [Option.bind_eq_bind, Option.bind_some, readJoiner_symbol joins, readClauses_blank,
        others]

theorem readClause_plain {joiner : Conjunction} {key : List Char} {test : Test}
    (word : IsWord key) (legible : test.Legible) (fuel : Nat) (rest : List Char)
    (ends : EndsWord rest) (enough : (plain joiner key test).bodyChars.length ≤ fuel + 1) :
    readClause fuel joiner ((plain joiner key test).bodyChars ++ rest) =
      some (.plain joiner key test, rest) := by
  rw [bodyChars_plain word] at enough ⊢
  have keyLength : 0 < key.length := List.length_pos_iff.mpr word.1
  have testLength : 0 < test.chars.length := List.length_pos_iff.mpr (test_chars_ne_nil test)
  rw [List.length_append, List.length_cons] at enough
  obtain ⟨fuel, rfl⟩ := Nat.exists_eq_succ_of_ne_zero (by omega : fuel ≠ 0)
  rw [List.append_assoc, List.cons_append, readClause, nextLexeme?_word word (endsWord_blank _)]
  simp only [readTest_blank, readTest_chars legible ends, Option.bind_eq_bind, Option.bind_some]

theorem readClause_group {joiner : Conjunction} {clauses : List Clause}
    (led : clauses.head?.map Clause.joiner = some .none) (legible : Legible clauses)
    (inner : ReadBack clauses) (fuel : Nat) (rest : List Char)
    (enough : (group joiner clauses).bodyChars.length ≤ fuel + 1) :
    readClause fuel joiner ((group joiner clauses).bodyChars ++ rest) =
      some (.group joiner clauses, rest) := by
  cases clauses with
  | nil => cases led
  | cons c more =>
      have first : c.joiner = .none := Option.some.inj led
      have some_ : ledChars (c :: more) ≠ [] := fun empty =>
        bodyChars_ne_nil legible (beside_eq_nil_iff.mp empty).1
      have shape : (group joiner (c :: more)).bodyChars =
          '(' :: ' ' :: (ledChars (c :: more) ++ [' ', ')']) := by
        rw [bodyChars, charsAll_of_led first, beside_of_ne_nil ' ' some_ (List.cons_ne_nil _ _)]
        exact beside_of_ne_nil ' ' (List.cons_ne_nil _ _) (by simp)
      rw [shape] at enough ⊢
      simp only [List.length_append, List.length_cons, List.length_nil] at enough
      obtain ⟨fuel, rfl⟩ := Nat.exists_eq_succ_of_ne_zero (by omega : fuel ≠ 0)
      have read := inner fuel (' ' :: ')' :: rest) ⟨endsWord_blank _, rfl⟩ (by omega)
      rw [first] at read
      have opening : ∀ text, nextLexeme? ('(' :: text) = some (.opening, text) := fun _ => rfl
      have closing : nextLexeme? (' ' :: ')' :: rest) = some (.closing, rest) := rfl
      rw [List.cons_append, List.cons_append, List.append_assoc, readClause, opening]
      simp only [readClauses_blank, List.cons_append, List.nil_append, read, closing,
        Option.bind_eq_bind, Option.bind_some]

/-- Legible clauses are read back. -/
theorem Legible.readBack {clauses : List Clause} (legible : Legible clauses) :
    ReadBack clauses := by
  induction legible with
  | nil => trivial
  | plain word test joined others after =>
      exact readBack_cons (.plain word test joined others) joined
        (readClause_plain word test) others after
  | group led legible joined others inner after =>
      exact readBack_cons (.group led legible joined others) joined
        (fun fuel rest _ => readClause_group led legible inner fuel rest) others after

/-- **A written condition is read back**, whole and with nothing else. -/
theorem readCondition_charsAll {clauses : List Clause} (legible : Legible clauses)
    (led : clauses.head?.map Clause.joiner = some .none) :
    readCondition (charsAll clauses) = some clauses := by
  cases clauses with
  | nil => cases led
  | cons c more =>
      have first : c.joiner = .none := Option.some.inj led
      have read := legible.readBack (ledChars (c :: more)).length [] ⟨by rintro c ⟨⟩, rfl⟩
        (Nat.le_refl _)
      rw [first, List.append_nil] at read
      rw [readCondition, charsAll_of_led first, read]
      rfl

/-- A text writes one condition at most. -/
theorem charsAll_inj {clauses others : List Clause} (legible : Legible clauses)
    (led : clauses.head?.map Clause.joiner = some .none) (legibleOthers : Legible others)
    (ledOthers : others.head?.map Clause.joiner = some .none)
    (same : charsAll clauses = charsAll others) : clauses = others := by
  have read := readCondition_charsAll legible led
  rw [same, readCondition_charsAll legibleOthers ledOthers] at read
  exact (Option.some.inj read).symm

end Clause

end Criteria
