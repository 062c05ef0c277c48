/-
# Criteria.Value.Json -- values as JSON

Reading tries the forms of a value on the whole JSON value: an object is a
constant when it has exactly one field `enum`, and that is a string; its other
fields do not count.  A string stays a string, so an instant comes back as text.
-/
import Criteria.Json.Decode
import Criteria.Value

namespace Criteria.Value

set_option autoImplicit false

/-! ## Writing -/

mutual

def toJson : Value → Json
  | .null => .null
  | .bool b => .bool b
  | .int n => .integer n.toInt
  | .float x => .float x
  | .string s => .string s
  | .enum name => .object [("enum", .string name)]
  | .date i => .string i.timestamp
  | .array items => .array (toJsonItems items)

def toJsonItems : List Value → List Json
  | [] => []
  | v :: rest => v.toJson :: toJsonItems rest

end

/-! ## Reading -/

/-- The integers that a value can hold; others become doubles. -/
def ofInteger (n : Int) : Value :=
  if -Nat.pow 2 63 ≤ n ∧ n < Nat.pow 2 63 then .int (.ofInt n) else .float (.ofInt n)

/-- The name of the constant that an object writes. -/
def enumName? (fields : List (String × Json)) : Option String :=
  match fields.filter (·.1 == "enum") with
  | [(_, .string name)] => some name
  | _ => none

mutual

def ofJson? : Json → Option Value
  | .null => some .null
  | .bool b => some (.bool b)
  | .integer n => some (ofInteger n)
  | .float x => some (.float x)
  | .string s => some (.string s)
  | .array items => (ofJsonItems? items).map .array
  | .object fields => (enumName? fields).map .enum

def ofJsonItems? : List Json → Option (List Value)
  | [] => some []
  | item :: rest =>
      match ofJson? item, ofJsonItems? rest with
      | some v, some vs => some (v :: vs)
      | _, _ => none

end

/-- Read a value off a document. -/
def ofDocument (room : Nat) (d : Json.Document) : Except Json.Fault Value := do
  match ofJson? (← d.toJson room) with
  | some v => return v
  | none => throw (.mismatch (.noVariant "Value"))

end Criteria.Value
