/-
# Criteria.Literal -- lists of values written into the text

The items of a membership are not bound but written out.  The first item that is
not null decides how all of them are written (`LiteralKind.of?`); an item of
another kind is refused.

Quoted literals are made harmless in a narrow sense only: `defuse` blanks out the
word `drop` and every semicolon, and a quote inside is written twice.
-/
import Criteria.Fault

namespace Criteria

set_option autoImplicit false

/-! ## Text -/

/-- Put a blank for each `drop` and each semicolon. -/
def defuseChars : List Char → List Char
  | 'd' :: 'r' :: 'o' :: 'p' :: rest => ' ' :: defuseChars rest
  | c :: rest => (if c = ';' then ' ' else c) :: defuseChars rest
  | [] => []

def defuse (s : String) : String :=
  .ofList (defuseChars s.toList)

/-- Write every quote twice. -/
def doubleQuotes : List Char → List Char
  | [] => []
  | c :: rest => if c = '\'' then '\'' :: '\'' :: doubleQuotes rest else c :: doubleQuotes rest

/-- A text between quotes, defused. -/
def quoteChars (text : List Char) : List Char :=
  '\'' :: doubleQuotes (defuseChars text) ++ ['\'']

def quote (s : String) : String :=
  .ofList (quoteChars s.toList)

/-! ## Literals -/

/-- One item of a list as it is written. -/
inductive Literal where
  | quoted (text : List Char)
  | bare (text : List Char)
  deriving DecidableEq, Repr

def Literal.chars : Literal → List Char
  | .quoted text => quoteChars text
  | .bare text => text

namespace LiteralKind

/-- How a value is written; null says nothing, and an array cannot be. -/
def of? : Value → Option LiteralKind
  | .string _ => some .text
  | .date _ => some .text
  | .enum _ => some .enum
  | .bool _ => some .plain
  | .int _ => some .plain
  | .float _ => some .plain
  | .null => none
  | .array _ => none

/-- Whether a value may be an item of a list of this kind.  A list of constants
also takes their names as strings. -/
def accepts : LiteralKind → Value → Bool
  | _, .null => true
  | .enum, .string _ => true
  | kind, v => of? v == some kind

/-- An item as it is written, if it is: nulls are left out, and blank texts. -/
def literal? : LiteralKind → Value → Option Literal
  | _, .null => none
  | .text, v => if (Text.trim v.chars).isEmpty then none else some (.quoted v.chars)
  | .enum, v => some (.quoted v.chars)
  | .plain, v => some (.bare v.chars)

/-- The literals of a list of this kind. -/
def literals (kind : LiteralKind) (key : String) : List Value → Except Fault (List Literal)
  | [] => .ok []
  | v :: rest => do
      if kind.accepts v then
        let after ← kind.literals key rest
        return (kind.literal? v).toList ++ after
      else throw (.mixedMembership key (some kind) v.kind)

theorem literals_cons (kind : LiteralKind) (key : String) (v : Value) (rest : List Value) :
    kind.literals key (v :: rest) =
      if kind.accepts v then
        (kind.literals key rest).map fun after => (kind.literal? v).toList ++ after
      else .error (.mixedMembership key (some kind) v.kind) := by
  rw [literals]
  cases kind.literals key rest <;> rfl

theorem literals_of_accepts {kind : LiteralKind} (key : String) {items : List Value}
    (accepted : ∀ v ∈ items, kind.accepts v = true) :
    kind.literals key items = .ok (items.filterMap kind.literal?) := by
  induction items with
  | nil => rfl
  | cons v rest ih =>
      rw [literals_cons, if_pos (accepted v List.mem_cons_self),
        ih fun w member => accepted w (List.mem_cons_of_mem _ member), List.filterMap_cons]
      cases kind.literal? v <;> rfl

theorem accepts_of_literals {kind : LiteralKind} {key : String} {items : List Value}
    {ls : List Literal} (written : kind.literals key items = .ok ls) :
    ∀ v ∈ items, kind.accepts v = true := by
  induction items generalizing ls with
  | nil => simp
  | cons v rest ih =>
      rw [literals_cons] at written
      split at written
      · rename_i accepted
        cases after : kind.literals key rest with
        | error f => simp [after, Except.map] at written
        | ok found => exact List.forall_mem_cons.mpr ⟨accepted, ih after⟩
      · cases written

/-- A list is written when all its items are of its kind. -/
theorem literals_eq_ok_iff {kind : LiteralKind} {key : String} {items : List Value}
    {ls : List Literal} :
    kind.literals key items = .ok ls ↔
      (∀ v ∈ items, kind.accepts v = true) ∧ ls = items.filterMap kind.literal? := by
  constructor
  · intro written
    have accepted := accepts_of_literals written
    rw [literals_of_accepts key accepted] at written
    exact ⟨accepted, (Except.ok.inj written).symm⟩
  · rintro ⟨accepted, rfl⟩
    exact literals_of_accepts key accepted

end LiteralKind

/-- The literals that a list of values is written with. -/
def literals (key : String) (items : List Value) : Except Fault (List Literal) :=
  match items.find? (!·.isNull) with
  | none => .ok []
  | some first =>
      match LiteralKind.of? first with
      | none => .error (.mixedMembership key none first.kind)
      | some kind => kind.literals key items

/-! ## Lists -/

/-- Literals with commas between them. -/
def joinLiterals : List Literal → List Char
  | [] => []
  | [l] => l.chars
  | l :: rest => l.chars ++ ',' :: ' ' :: joinLiterals rest

/-- A written list, also when it is empty. -/
def listChars (ls : List Literal) : List Char :=
  if ls.isEmpty then ['(', ' ', ')'] else '(' :: ' ' :: joinLiterals ls ++ [' ', ')']

/-- A list of values as it is written. -/
def renderList (key : String) (items : List Value) : Except Fault String :=
  (literals key items).map fun ls => .ofList (listChars ls)

end Criteria
