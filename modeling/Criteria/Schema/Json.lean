/-
# Criteria.Schema.Json -- schemas as JSON

A schema is `{"tables": [...]}`, a table has a `name` and `columns`, a column a
`name`, a `type` (also spelled `typ`) and `primitive`.  Each of the three may also
be an array of its fields in this order.  A table has to have a name, a column a
name and a type; everything else has a default.
-/
import Criteria.Json.Decode
import Criteria.Schema

namespace Criteria

set_option autoImplicit false

open Json (Document Name)

/-! ## Writing -/

def Column.toJson (c : Column) : Json :=
  .object [("name", .string c.name), ("type", .string c.type.name),
    ("primitive", .bool c.primitive)]

def Table.toJson (t : Table) : Json :=
  .object [("name", .string t.name), ("columns", .array (t.columns.map Column.toJson))]

def Schema.toJson (s : Schema) : Json :=
  .object [("tables", .array (s.tables.map Table.toJson))]

def Schema.serialize (s : Schema) : String :=
  s.toJson.compact

/-! ## Records

A record is read field by field into a draft.  A field is given by the reader that
puts its value into the draft, and by whether the draft has it already. -/

/-- One field of a record. -/
structure RecordField (Draft : Type) where
  name : String
  spellings : List String
  present : Draft → Bool
  read : Nat → Document → Draft → Except Json.Fault Draft

namespace RecordField

variable {Draft : Type}

/-- Read the fields of an object; those with other names are passed over. -/
def readNamed (fields : List (RecordField Draft)) (room : Nat) (draft : Draft) :
    List (Name × Document) → Except Json.Fault Draft
  | [] => .ok draft
  | (name, d) :: rest => do
      let name ← name
      match fields.find? (·.spellings.contains name) with
      | some field =>
          if field.present draft then throw (.mismatch (.duplicateField field.name))
          readNamed fields room (← field.read room d draft) rest
      | none => readNamed fields room draft rest

/-- Read the items of an array, one for each field in order. -/
def readInOrder (room : Nat) (draft : Draft) :
    List (RecordField Draft) → List Document → Except Json.Fault Draft
  | _, [] => .ok draft
  | [], _ :: _ => .error .malformed
  | field :: fields, d :: rest => do readInOrder room (← field.read room d draft) fields rest

/-- Read a record, a thing called `typeName`, and finish its draft.  `finish` gets
what is missing: a field, or the item at a place of an array. -/
def readRecord {α : Type} (typeName : String) (fields : List (RecordField Draft)) (blank : Draft)
    (finish : Draft → Except Nat α) (room : Nat) : Document → Except Json.Fault α
  | .object named stop => do
      let inner ← Json.enter room
      let draft ← readNamed fields inner blank named
      Json.reachEnd stop
      match finish draft with
      | .ok a => return a
      | .error place =>
          throw (.mismatch (.missingField ((fields[place]?.map RecordField.name).getD "")))
  | .array items stop => do
      let inner ← Json.enter room
      let draft ← readInOrder inner blank fields items
      Json.reachEnd stop
      match finish draft with
      | .ok a => return a
      | .error place => throw (.mismatch (.invalidLength place (typeName ++ " with " ++ elements)))
  | d => .error (d.unexpected typeName)
where
  elements : String :=
    Nat.repr fields.length ++ (if fields.length = 1 then " element" else " elements")

end RecordField

/-- Read an array, each item with the same reader. -/
def readArray {α : Type} (read : Nat → Document → Except Json.Fault α) (room : Nat) :
    Document → Except Json.Fault (List α)
  | .array items stop => do
      let inner ← Json.enter room
      let values ← items.mapM (read inner)
      Json.reachEnd stop
      return values
  | d => .error (d.unexpected "a sequence")

/-! ## Reading -/

namespace Column

structure Draft where
  name : Option String
  type : Option ColumnType
  primitive : Option Bool

def fields : List (RecordField Draft) :=
  [⟨"name", ["name"], fun c => c.name.isSome,
      fun _ d c => do return { c with name := some (← d.toText) }⟩,
    ⟨"type", ["type", "typ"], fun c => c.type.isSome,
      fun room d c => do return { c with type := some (← d.toVariant room ColumnType.named) }⟩,
    ⟨"primitive", ["primitive"], fun c => c.primitive.isSome,
      fun _ d c => do return { c with primitive := some (← d.toBool) }⟩]

/-- The column of a draft, or the place of the first field it lacks. -/
def Draft.finish (c : Draft) : Except Nat Column :=
  match c.name, c.type with
  | none, _ => .error 0
  | _, none => .error 1
  | some name, some type => .ok ⟨name, type, c.primitive.getD false⟩

def ofDocument : Nat → Document → Except Json.Fault Column :=
  RecordField.readRecord "struct ColumnDef" fields ⟨none, none, none⟩ Draft.finish

end Column

namespace Table

structure Draft where
  name : Option String
  columns : Option (List Column)

def fields : List (RecordField Draft) :=
  [⟨"name", ["name"], fun t => t.name.isSome,
      fun _ d t => do return { t with name := some (← d.toText) }⟩,
    ⟨"columns", ["columns"], fun t => t.columns.isSome,
      fun room d t => do return { t with columns := some (← readArray Column.ofDocument room d) }⟩]

def Draft.finish (t : Draft) : Except Nat Table :=
  match t.name with
  | none => .error 0
  | some name => .ok ⟨name, t.columns.getD []⟩

def ofDocument : Nat → Document → Except Json.Fault Table :=
  RecordField.readRecord "struct TableDef" fields ⟨none, none⟩ Draft.finish

end Table

namespace Schema

def fields : List (RecordField (Option (List Table))) :=
  [⟨"tables", ["tables"], Option.isSome,
      fun room d _ => do return some (← readArray Table.ofDocument room d)⟩]

def ofDocument : Nat → Document → Except Json.Fault Schema :=
  RecordField.readRecord "struct Schema" fields none fun tables => .ok ⟨tables.getD []⟩

/-- Read a JSON text as a schema. -/
def parseJson (text : String) : Except Fault Schema :=
  match Json.decode ofDocument text with
  | .ok s => .ok s
  | .error f => .error (.json f)

end Schema

end Criteria
