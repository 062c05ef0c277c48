/-
# Criteria.Node -- condition trees

A list of nodes is a condition: each node is joined to the ones before it by its
conjunction.  The children of a group are a list of the same kind.  Any key, value
and children may stand with any predicate; the builders below make the
combinations that mean something.
-/
import Criteria.Fault
import Criteria.Key
import Criteria.Predicate

namespace Criteria

set_option autoImplicit false

structure Node where
  conjunction : Conjunction
  key : Key
  predicate : Predicate
  value : Value
  children : List Node

namespace Node

/-! ## Builders -/

/-- A condition on a field. -/
def ofPath (path : Path) (predicate : Predicate) (value : Value) : Node :=
  ⟨.none, .path path, predicate, value, []⟩

/-- A condition on the field that a key text names. -/
def ofKey (key : String) (predicate : Predicate) (value : Value) : Except Fault Node :=
  match Path.parse key with
  | .ok path => .ok (ofPath path predicate value)
  | .error text => .error (.invalidKey text)

def compare (op : Comparison) (key : String) (value : Value) : Except Fault Node :=
  ofKey key (.compare op) value

def member (negated : Bool) (key : String) (items : List Value) : Except Fault Node :=
  ofKey key (.member negated) (.array items)

def nullCheck (negated : Bool) (key : String) : Except Fault Node :=
  ofKey key (.nullCheck negated) .null

/-- A fragment of SQL.  The items of an array bind to its `?` in order. -/
def fragment (sql : String) (value : Value) : Node :=
  ⟨.none, .raw sql, .fragment, value, []⟩

/-- Conditions in parentheses. -/
def group (children : List Node) : Node :=
  ⟨.none, .none, .group, .null, children⟩

def joined (conjunction : Conjunction) (n : Node) : Node :=
  { n with conjunction }

/-! ## Size, text and equality -/

mutual

/-- The nodes of a tree, its root included. -/
def count : Node → Nat
  | ⟨_, _, _, _, children⟩ => 1 + countAll children

/-- The nodes of a list of trees. -/
def countAll : List Node → Nat
  | [] => 0
  | n :: rest => n.count + countAll rest

end

/-- A node on one line, its children only counted. -/
def text (n : Node) : String :=
  match n.predicate with
  | .group => n.conjunction.symbol ++ " SUB[" ++ Nat.repr n.children.length ++ "]"
  | .nullCheck _ => n.conjunction.symbol ++ " " ++ n.key.text ++ " " ++ n.predicate.text
  | _ =>
      n.conjunction.symbol ++ " " ++ n.key.text ++ " " ++ n.predicate.text ++ " " ++ n.value.text

mutual

/-- Equality, with values compared by `Value.same`. -/
def same : Node → Node → Bool
  | ⟨c, k, p, v, ns⟩, ⟨c', k', p', v', ns'⟩ =>
      c == c' && k == k' && p == p' && v.same v' && sameAll ns ns'

def sameAll : List Node → List Node → Bool
  | [], [] => true
  | n :: ns, m :: ms => n.same m && sameAll ns ms
  | _, _ => false

end

end Node

end Criteria
