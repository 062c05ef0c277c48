/-
# Criteria.Config -- the settings of a compilation

Two settings, each with a default, read from TOML.
-/
import Criteria.Dialect
import Criteria.Filter
import Criteria.Toml.Decode

namespace Criteria

set_option autoImplicit false

structure Config where
  dialect : Dialect
  /-- the deepest level of groups -/
  limit : Nat
  deriving DecidableEq, Repr

namespace Config

def standard : Config :=
  ⟨.question, defaultLimit⟩

/-- In a file the dialects go by their own names only. -/
def dialects : List (String × Dialect) :=
  [("question", .question), ("postgres", .postgres)]

def ofToml? (v : Toml) : Option Config := do
  match ← v.toRecord? [["dialect"], ["max_depth"]] with
  | [dialect, limit] =>
      return ⟨← Toml.orElse? standard.dialect (Toml.toVariant? dialects) dialect,
        ← Toml.orElse? standard.limit Toml.toNat? limit⟩
  | _ => none

/-- Read a TOML text as settings. -/
def parse (text : String) : Except Fault Config :=
  match (Toml.parse text).bind ofToml? with
  | some c => .ok c
  | none => .error .toml

/-- The settings as TOML text. -/
def serialize (c : Config) : String :=
  "dialect = \"" ++ c.dialect.name ++ "\"\nmax_depth = " ++ Nat.repr c.limit ++ "\n"

end Config

end Criteria
