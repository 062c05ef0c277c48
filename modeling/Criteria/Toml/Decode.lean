/-
# Criteria.Toml.Decode -- reading values off a TOML document

A reader gives nothing for a value of another shape.  Records are tables, or
arrays of their fields in order; fields with other names, and items behind the
last field, are passed over.
-/
import Criteria.Toml.Reader

namespace Criteria.Toml

set_option autoImplicit false

def toText? : Toml → Option String
  | .string s => some s
  | _ => none

def toBool? : Toml → Option Bool
  | .boolean b => some b
  | _ => none

def toNat? : Toml → Option Nat
  | .integer n => if 0 ≤ n then some n.toNat else none
  | _ => none

/-- One of several variants: its name, or a table with the name as its only field
and nothing in it. -/
def toVariant? {α : Type} (variants : List (String × α)) : Toml → Option α
  | .string s => variants.lookup s
  | .table [(name, .table [])] => variants.lookup name
  | .table [(name, .array [])] => variants.lookup name
  | _ => none

def toArray? {α : Type} (read : Toml → Option α) : Toml → Option (List α)
  | .array items => items.mapM read
  | _ => none

/-- The values of a record's fields, each given by its spellings.  No field may be
there under two of them. -/
def toRecord? (fields : List (List String)) : Toml → Option (List (Option Toml))
  | .table entries =>
      fields.mapM fun spellings =>
        match entries.filter fun entry => spellings.contains entry.1 with
        | [] => some none
        | [(_, v)] => some (some v)
        | _ => none
  | .array items => some ((List.range fields.length).map fun place => items[place]?)
  | _ => none

/-- A value that may be left out. -/
def orElse? {α : Type} (missing : α) (read : Toml → Option α) : Option Toml → Option α
  | none => some missing
  | some v => read v

end Criteria.Toml
