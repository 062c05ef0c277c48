/-
# Criteria.Key -- what a condition is about

A condition names a field, alone or behind an alias (`age`, `o.city`), or carries
a raw fragment of SQL, or, when it is a group, nothing.  `Path.parse` reads a
field's name; both parts are made of ASCII letters and digits, `_` and `$`.
-/
import Criteria.Text.Blank

namespace Criteria

set_option autoImplicit false

/-- A field, of the primary table unless an alias stands before it. -/
structure Path where
  qualifier : Option String
  field : String
  deriving DecidableEq, Repr

namespace Path

def isNameChar (c : Char) : Bool :=
  c.isAlphanum || c = '_' || c = '$'

def isName (text : List Char) : Bool :=
  !text.isEmpty && text.all isNameChar

/-- Read `field` or `alias.field`, blanks around it aside; on failure the trimmed
text. -/
def parse (s : String) : Except String Path :=
  let text := Text.trim s.toList
  let front := text.takeWhile (· ≠ '.')
  match text.dropWhile (· ≠ '.') with
  | [] => if isName text then .ok ⟨none, .ofList text⟩ else .error (.ofList text)
  | _ :: field =>
      if isName front && isName field then .ok ⟨some (.ofList front), .ofList field⟩
      else .error (.ofList text)

/-- Both parts of a path that was read are names. -/
theorem isName_of_parse {s : String} {p : Path} (read : parse s = .ok p) :
    isName p.field.toList = true ∧ ∀ name, p.qualifier = some name → isName name.toList = true := by
  simp only [parse] at read
  split at read
  · split at read
    · rename_i name
      cases read
      exact ⟨by rw [String.toList_ofList]; exact name, by simp⟩
    · cases read
  · split at read
    · rename_i names
      cases read
      rw [Bool.and_eq_true] at names
      refine ⟨by rw [String.toList_ofList]; exact names.2, fun name qualified => ?_⟩
      rw [← Option.some.inj qualified, String.toList_ofList]
      exact names.1
    · cases read

def text (p : Path) : String :=
  match p.qualifier with
  | some name => name ++ "." ++ p.field
  | none => p.field

end Path

/-- What a condition is about. -/
inductive Key where
  | none
  | path (p : Path)
  /-- SQL text in which each `?` stands for a bound value -/
  | raw (sql : String)
  deriving DecidableEq, Repr

def Key.text : Key → String
  | .none => ""
  | .path p => p.text
  | .raw sql => sql

end Criteria
