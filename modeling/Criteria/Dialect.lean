/-
# Criteria.Dialect -- how placeholders are spelled
-/
import Criteria.Fault

namespace Criteria

set_option autoImplicit false

inductive Dialect where
  /-- `?` for every value -/
  | question
  /-- `$1`, `$2` and so on, in the order of writing -/
  | postgres
  deriving DecidableEq, Repr

namespace Dialect

/-- The placeholder of the `index`-th value, counted from one. -/
def placeholder (d : Dialect) (index : Nat) : List Char :=
  match d with
  | .question => ['?']
  | .postgres => '$' :: Nat.toDigits 10 index

theorem placeholder_ne_nil (d : Dialect) (index : Nat) : d.placeholder index ≠ [] := by
  cases d <;> exact List.cons_ne_nil _ _

def name : Dialect → String
  | .question => "question"
  | .postgres => "postgres"

/-- The dialect of a name, in ASCII letters of either case; products stand for
the spelling they use. -/
def parse (s : String) : Except Fault Dialect :=
  match s.toLower with
  | "question" | "mysql" | "sqlite" | "jdbc" => .ok .question
  | "postgres" | "postgresql" | "pg" => .ok .postgres
  | other => .error (.unknownDialect other)

end Dialect

end Criteria
