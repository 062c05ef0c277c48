/-
# Criteria.Emission -- what a condition tree writes and what it binds

`emit` gives the tokens of a tree's SQL text and `bindings` the values for its
placeholders, each in the order of writing.  Both stop at the first fault and keep
what came before it (`Emitted`).  Neither depends on how placeholders are spelled:
a token only knows where its holes are.
-/
import Criteria.Filter
import Criteria.Literal

namespace Criteria

set_option autoImplicit false

/-- What has been given out, and the fault that ended it, if one did. -/
structure Emitted (α : Type) where
  written : List α
  failure : Option Fault

namespace Emitted

variable {α : Type}

def nothing : Emitted α :=
  ⟨[], none⟩

def of (written : List α) : Emitted α :=
  ⟨written, none⟩

def fail (f : Fault) : Emitted α :=
  ⟨[], some f⟩

/-- One after the other; nothing comes after a fault. -/
def followedBy (a b : Emitted α) : Emitted α :=
  match a.failure with
  | some _ => a
  | none => ⟨a.written ++ b.written, b.failure⟩

@[simp] theorem of_failure (written : List α) : (of written).failure = none := rfl

@[simp] theorem of_written (written : List α) : (of written).written = written := rfl

@[simp] theorem nothing_failure : (nothing : Emitted α).failure = none := rfl

@[simp] theorem nothing_written : (nothing : Emitted α).written = [] := rfl

@[simp] theorem fail_failure (f : Fault) : (fail f : Emitted α).failure = some f := rfl

@[simp] theorem fail_written (f : Fault) : (fail f : Emitted α).written = [] := rfl

/-- Both parts of what was given out without a fault were. -/
@[simp] theorem followedBy_failure_eq_none {a b : Emitted α} :
    (a.followedBy b).failure = none ↔ a.failure = none ∧ b.failure = none := by
  unfold followedBy
  cases h : a.failure <;> simp [h]

/-- The fault of two parts is that of the first, or else that of the second. -/
theorem followedBy_failure (a b : Emitted α) :
    (a.followedBy b).failure = a.failure.or b.failure := by
  unfold followedBy
  cases h : a.failure <;> simp [h]

theorem followedBy_written {a b : Emitted α} (whole : a.failure = none) :
    (a.followedBy b).written = a.written ++ b.written := by
  simp [followedBy, whole]

theorem nothing_followedBy (a : Emitted α) : nothing.followedBy a = a := rfl

/-- Of three parts it does not matter which two are put together first. -/
theorem followedBy_assoc (a b c : Emitted α) :
    (a.followedBy b).followedBy c = a.followedBy (b.followedBy c) := by
  unfold followedBy
  cases first : a.failure with
  | some f => simp [first]
  | none => cases second : b.failure <;> simp [second]

end Emitted

/-! ## Tokens -/

/-- A part of the text that stands between two blanks. -/
inductive Token where
  | joiner (c : Conjunction)
  | openGroup
  | closeGroup
  | key (text : String)
  | operator (p : Predicate)
  | hole
  | list (items : List Literal)
  | fragment (sql : String)

/-- A character, or a hole for a value. -/
inductive Piece where
  | char (c : Char)
  | hole
  deriving DecidableEq, Repr

@[simp] theorem count_hole_map_char (text : List Char) :
    (text.map Piece.char).count .hole = 0 := by
  rw [List.count_eq_zero]
  simp

/-- In a fragment each question mark is a hole. -/
def Piece.ofFragment (c : Char) : Piece :=
  if c = '?' then .hole else .char c

namespace Token

/-- The text of a token with its holes.  A token may be empty; it is then not
written at all. -/
def pieces : Token → List Piece
  | .joiner c => c.symbol.toList.map .char
  | .openGroup => [.char '(']
  | .closeGroup => [.char ')']
  | .key text => text.toList.map .char
  | .operator p => p.symbol.toList.map .char
  | .hole => [.hole]
  | .list items => (listChars items).map .char
  | .fragment sql => (Text.trim sql.toList).map .ofFragment

end Token

/-! ## Writing a tree -/

/-- A group without children is not written, and its conjunction neither. -/
def Node.isEmptyGroup (n : Node) : Bool :=
  n.predicate = .group && n.children.isEmpty

/-- The tokens of a membership behind its conjunction. -/
def emitMembership (key : Key) (predicate : Predicate) (v : Value) : Emitted Token :=
  match (members? key v).bind (literals key.text) with
  | .ok items => .of [.key key.text, .operator predicate, .list items]
  | .error f => .fail f

/-- A membership is written when its items are. -/
theorem literals_of_emitMembership {key : Key} {predicate : Predicate} {v : Value}
    (whole : (emitMembership key predicate v).failure = none) :
    ∃ ls, literals key.text v.members = .ok ls ∧
      (emitMembership key predicate v).written =
        [.key key.text, .operator predicate, .list ls] := by
  unfold emitMembership members? at whole ⊢
  cases items : v.members with
  | nil => simp [items, Except.bind] at whole
  | cons first rest =>
      simp only [items, Except.bind] at whole ⊢
      cases found : literals key.text (first :: rest) with
      | error f => simp [found] at whole
      | ok ls => exact ⟨ls, rfl, rfl⟩

mutual

/-- The tokens of one node, `depth` levels down.  The first node of a group is
written without its conjunction. -/
def emitNode (limit depth : Nat) (leading : Bool) : Node → Emitted Token
  | ⟨conjunction, key, predicate, v, children⟩ =>
      (Emitted.of [.joiner (if leading then .none else conjunction)]).followedBy <|
        match predicate with
        | .group =>
            let inner : Emitted Token :=
              if limit < depth + 1 then .fail (.nestingTooDeep limit)
              else emitAll limit (depth + 1) true children
            ((Emitted.of [.openGroup]).followedBy inner).followedBy (.of [.closeGroup])
        | .fragment => .of [.fragment key.text]
        | .nullCheck _ => .of [.key key.text, .operator predicate]
        | .member _ => emitMembership key predicate v
        | .compare _ =>
            .of ([.key key.text, .operator predicate] ++ if v.isNull then [] else [.hole])

/-- The tokens of a list of nodes, `depth` levels down. -/
def emitAll (limit depth : Nat) (leading : Bool) : List Node → Emitted Token
  | [] => .nothing
  | n :: rest =>
      if n.isEmptyGroup then emitAll limit depth leading rest
      else (emitNode limit depth leading n).followedBy (emitAll limit depth false rest)

end

/-- The tokens of a condition tree.  At the root all conjunctions are written. -/
def emit (limit : Nat) (nodes : List Node) : Emitted Token :=
  emitAll limit 0 false nodes

/-! ## The bound values -/

mutual

/-- The values that one node binds, `depth` levels down.  Items of lists are
written out and null checks have no value; a fragment binds the items of an
array. -/
def bindNode (limit depth : Nat) : Node → Emitted Value
  | ⟨_, _, predicate, v, children⟩ =>
      match predicate with
      | .group =>
          if limit < depth + 1 then .fail (.nestingTooDeep limit)
          else bindAll limit (depth + 1) children
      | .fragment =>
          match v with
          | .array items => .of (items.map Value.toBind)
          | _ => .nothing
      | .nullCheck _ => .nothing
      | .member _ => .nothing
      | .compare _ => .of (if v.isNull then [] else [v.toBind])

def bindAll (limit depth : Nat) : List Node → Emitted Value
  | [] => .nothing
  | n :: rest => (bindNode limit depth n).followedBy (bindAll limit depth rest)

end

/-- The values that a condition tree binds. -/
def bindings (limit : Nat) (nodes : List Node) : Emitted Value :=
  bindAll limit 0 nodes

end Criteria
