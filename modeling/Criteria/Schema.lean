/-
# Criteria.Schema -- the tables that conditions are about

A `Schema` lists tables and their columns.  Compilation does not need that much:
it asks a `Catalog` for a table by name, and the table for its name, for the type
of a column, and whether comparing a field with a value constrains anything.
`Schema.catalog` answers from a schema; names may repeat, and the first of a name
counts.
-/
import Criteria.Fault

namespace Criteria

set_option autoImplicit false

inductive ColumnType where
  | text
  | integer
  | decimal
  | boolean
  | date
  | timestamp
  | enum
  deriving DecidableEq, Repr

namespace ColumnType

def isNumeric : ColumnType → Bool
  | .integer => true
  | .decimal => true
  | _ => false

def isTemporal : ColumnType → Bool
  | .date => true
  | .timestamp => true
  | _ => false

def named : List (String × ColumnType) :=
  [("text", .text), ("integer", .integer), ("decimal", .decimal), ("boolean", .boolean),
    ("date", .date), ("timestamp", .timestamp), ("enum", .enum)]

def name : ColumnType → String
  | .text => "text"
  | .integer => "integer"
  | .decimal => "decimal"
  | .boolean => "boolean"
  | .date => "date"
  | .timestamp => "timestamp"
  | .enum => "enum"

theorem lookup_name (t : ColumnType) : named.lookup t.name = some t := by
  cases t <;> decide

end ColumnType

/-- A column.  A primitive one is never absent: its zero stands for "not set". -/
structure Column where
  name : String
  type : ColumnType
  primitive : Bool
  deriving DecidableEq, Repr

structure Table where
  name : String
  columns : List Column
  deriving DecidableEq, Repr

structure Schema where
  tables : List Table
  deriving DecidableEq, Repr

/-! ## What compilation asks -/

/-- A table as compilation sees it. -/
structure TableView where
  name : String
  /-- the declared type of a field -/
  type? : String → Option ColumnType
  /-- whether comparing the field with the value imposes no real constraint -/
  redundant : String → Value → Bool

/-- Tables by name. -/
def Catalog : Type :=
  String → Option TableView

/-- The table of a name, or the fault that there is none. -/
def Catalog.resolve (catalog : Catalog) (name : String) : Except Fault TableView :=
  match catalog name with
  | some view => .ok view
  | none => .error (.unknownSchema name)

/-! ## What a schema answers -/

namespace Table

def column? (t : Table) (field : String) : Option Column :=
  t.columns.find? (·.name == field)

/-- Null constrains nothing.  Nor does the zero of a primitive numeric column; and
zero compared with a field that is not declared reads as "not set". -/
def redundant (t : Table) (field : String) (v : Value) : Bool :=
  v.isNull ||
    match t.column? field with
    | none => v.isZero
    | some column => column.primitive && column.type.isNumeric && v.isZero

/-- An instant is no zero. -/
theorem redundant_date (t : Table) (field : String) (i : Calendar.Instant) :
    t.redundant field (.date i) = false := by
  cases column : t.column? field <;> simp [redundant, column, Value.isNull, Value.isZero]

def view (t : Table) : TableView where
  name := t.name
  type? := fun field => (t.column? field).map Column.type
  redundant := t.redundant

end Table

namespace Schema

def table? (s : Schema) (name : String) : Option Table :=
  s.tables.find? (·.name == name)

def catalog (s : Schema) : Catalog :=
  fun name => (s.table? name).map Table.view

theorem resolve_catalog_eq_ok_iff {s : Schema} {name : String} {view : TableView} :
    s.catalog.resolve name = .ok view ↔ ∃ t, s.table? name = some t ∧ view = t.view := by
  simp only [Catalog.resolve, catalog]
  cases s.table? name with
  | none => simp
  | some t => simp [eq_comm]

end Schema

end Criteria
