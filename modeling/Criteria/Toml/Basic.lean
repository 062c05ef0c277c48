/-
# Criteria.Toml.Basic -- TOML values, and tables while they are being written

`Toml` is a finished value; floats and dates are only told apart, since nobody
asks for theirs.

A document defines its tables piece by piece, and the format forbids defining one
twice.  A `Section` is a table with what has to be remembered for that: whether a
header has named it yet (`implicit` if not), and whether dotted keys made it.
-/
namespace Criteria

set_option autoImplicit false

inductive Toml where
  | string (s : String)
  | integer (n : Int)
  | float
  | boolean (b : Bool)
  | datetime
  | array (items : List Toml)
  | table (fields : List (String × Toml))

namespace Toml

mutual

inductive Entry where
  | value (v : Toml)
  | section (s : Section)
  /-- an array of tables; the last is the one being written -/
  | sections (ss : List Section)

inductive Section where
  | mk (entries : List (String × Entry)) (implicit dotted : Bool)

end

namespace Section

def entries : Section → List (String × Entry)
  | mk entries _ _ => entries

def implicit : Section → Bool
  | mk _ implicit _ => implicit

def dotted : Section → Bool
  | mk _ _ dotted => dotted

def blank : Section :=
  mk [] false false

/-- Put an entry at a name, in the place of the old one if there is one. -/
def put (s : Section) (name : String) (e : Entry) : Section :=
  let entries :=
    if s.entries.any (·.1 == name) then
      s.entries.map fun old => if old.1 == name then (name, e) else old
    else s.entries ++ [(name, e)]
  mk entries s.implicit s.dotted

def erase (s : Section) (name : String) : Section :=
  mk (s.entries.filter (·.1 != name)) s.implicit s.dotted

/-- Change the section at a path.  Sections on the way are made where there are
none; a path of dotted keys does not lead into a section that a header named, and
no path leads into a value. -/
def alter (dotted : Bool) (f : Section → Option Section) : List String → Section → Option Section
  | [], s => f s
  | name :: path, s =>
      match s.entries.lookup name with
      | none => do
          let inner ← alter dotted f path (mk [] true dotted)
          return s.put name (.section inner)
      | some (.value _) => none
      | some (.sections ss) =>
          match ss.getLast? with
          | none => none
          | some last => do
              let inner ← alter dotted f path last
              return s.put name (.sections (ss.dropLast ++ [inner]))
      | some (.section t) =>
          if dotted && !t.implicit then none
          else do
            let inner ← alter dotted f path t
            return s.put name (.section inner)

/-- Define a dotted key.  The section it ends in has to be one that dotted keys
made, and the name there has to be new. -/
def define (s : Section) (path : List String) (name : String) (v : Toml) : Option Section :=
  s.alter true (fun t =>
    if t.dotted = path.isEmpty || t.entries.any (·.1 == name) then none
    else some (t.put name (.value v))) path

end Section

mutual

def ofEntry : Entry → Toml
  | .value v => v
  | .section s => ofSection s
  | .sections ss => .array (ofSections ss)

def ofSection : Section → Toml
  | .mk entries _ _ => .table (ofEntries entries)

def ofSections : List Section → List Toml
  | [] => []
  | s :: rest => ofSection s :: ofSections rest

def ofEntries : List (String × Entry) → List (String × Toml)
  | [] => []
  | (name, e) :: rest => (name, ofEntry e) :: ofEntries rest

end

end Toml

end Criteria
