/-
# Criteria.Schema.Toml -- schemas as TOML

The same records as in JSON: `[[tables]]` with `[[tables.columns]]`.
-/
import Criteria.Schema
import Criteria.Toml.Decode

namespace Criteria

set_option autoImplicit false

def Column.ofToml? (v : Toml) : Option Column := do
  match ← v.toRecord? [["name"], ["type", "typ"], ["primitive"]] with
  | [some name, some type, primitive] =>
      return ⟨← name.toText?, ← type.toVariant? ColumnType.named,
        ← Toml.orElse? false Toml.toBool? primitive⟩
  | _ => none

def Table.ofToml? (v : Toml) : Option Table := do
  match ← v.toRecord? [["name"], ["columns"]] with
  | [some name, columns] =>
      return ⟨← name.toText?, ← Toml.orElse? [] (Toml.toArray? Column.ofToml?) columns⟩
  | _ => none

def Schema.ofToml? (v : Toml) : Option Schema := do
  match ← v.toRecord? [["tables"]] with
  | [tables] => return ⟨← Toml.orElse? [] (Toml.toArray? Table.ofToml?) tables⟩
  | _ => none

/-- Read a TOML text as a schema. -/
def Schema.parseToml (text : String) : Except Fault Schema :=
  match (Toml.parse text).bind Schema.ofToml? with
  | some s => .ok s
  | none => .error .toml

end Criteria
