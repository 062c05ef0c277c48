/-
# Criteria.Predicate -- what a condition says, and how conditions are joined

Comparisons bind their value to a placeholder, memberships write theirs into the
text, null checks have none.  A fragment is SQL of the caller's own, a group is a
list of conditions in parentheses.
-/
namespace Criteria

set_option autoImplicit false

inductive Comparison where
  | eq
  | ne
  | gt
  | gte
  | lt
  | lte
  deriving DecidableEq, Repr

inductive Predicate where
  | compare (op : Comparison)
  | member (negated : Bool)
  | nullCheck (negated : Bool)
  | fragment
  | group
  deriving DecidableEq, Repr

def Comparison.symbol : Comparison → String
  | .eq => "="
  | .ne => "<>"
  | .gt => ">"
  | .gte => ">="
  | .lt => "<"
  | .lte => "<="

namespace Predicate

/-- The word or sign in SQL text; fragments and groups have none. -/
def symbol : Predicate → String
  | .compare op => op.symbol
  | .member false => "IN"
  | .member true => "NOT IN"
  | .nullCheck false => "IS NULL"
  | .nullCheck true => "IS NOT NULL"
  | .fragment => ""
  | .group => ""

/-- The symbol, or the name of a predicate without one. -/
def text : Predicate → String
  | .fragment => "X"
  | .group => "SUB"
  | p => p.symbol

def isComparison : Predicate → Bool
  | .compare _ => true
  | _ => false

def isMembership : Predicate → Bool
  | .member _ => true
  | _ => false

def isNullCheck : Predicate → Bool
  | .nullCheck _ => true
  | _ => false

/-- All predicates with their names, in the order in which messages list them. -/
def named : List (String × Predicate) :=
  [("EQ", .compare .eq), ("NE", .compare .ne), ("GT", .compare .gt), ("GTE", .compare .gte),
    ("LT", .compare .lt), ("LTE", .compare .lte), ("IN", .member false), ("NOT_IN", .member true),
    ("IS_NULL", .nullCheck false), ("IS_NOT_NULL", .nullCheck true), ("X", .fragment),
    ("SUB", .group)]

def name : Predicate → String
  | .compare .eq => "EQ"
  | .compare .ne => "NE"
  | .compare .gt => "GT"
  | .compare .gte => "GTE"
  | .compare .lt => "LT"
  | .compare .lte => "LTE"
  | .member false => "IN"
  | .member true => "NOT_IN"
  | .nullCheck false => "IS_NULL"
  | .nullCheck true => "IS_NOT_NULL"
  | .fragment => "X"
  | .group => "SUB"

theorem lookup_name (p : Predicate) : named.lookup p.name = some p := by
  rcases p with (_ | _ | _ | _ | _ | _) | (_ | _) | (_ | _) | _ | _ <;> decide

end Predicate

/-- What joins a condition to the ones before it. -/
inductive Conjunction where
  | and
  | or
  /-- nothing: the first condition of a list -/
  | none
  deriving DecidableEq, Repr

namespace Conjunction

def symbol : Conjunction → String
  | .and => "AND"
  | .or => "OR"
  | .none => ""

def named : List (String × Conjunction) :=
  [("AND", .and), ("OR", .or), ("NONE", .none)]

def name : Conjunction → String
  | .and => "AND"
  | .or => "OR"
  | .none => "NONE"

theorem lookup_name (c : Conjunction) : named.lookup c.name = some c := by
  cases c <;> decide

end Conjunction

end Criteria
