/-
# Criteria.Toml.Reader -- TOML documents

A document is a list of lines: definitions, which go into the section whose header
came last, and headers.  `parse` gives the finished table of a document, or
nothing when it is refused.
-/
import Criteria.Toml.Scalar

namespace Criteria.Toml

set_option autoImplicit false

/-! ## Values -/

/-- The table of the definitions between braces. -/
def inlineTable? (definitions : List (List String × Toml)) : Option Toml :=
  (definitions.foldlM define .blank).map ofSection
where
  define (s : Section) (d : List String × Toml) : Option Section :=
    match d.1.getLast? with
    | some name => s.define d.1.dropLast name d.2
    | none => none

mutual

/-- A value.  `room` is the number of containers that may still be opened, `fuel`
bounds the steps and is never less than the length of the text. -/
def value? (fuel room : Nat) (text : List Char) : Option (Toml × List Char) :=
  match fuel, text with
  | 0, _ => none
  | _ + 1, [] => none
  | fuel + 1, c :: rest =>
      if c = '"' ∨ c = '\'' then (string? text).map fun (s, rest) => (.string s, rest)
      else if c = '[' then
        match room with
        | 0 => none
        | room + 1 => (items? fuel room rest).map fun (items, rest) => (.array items, rest)
      else if c = '{' then
        match room with
        | 0 => none
        | room + 1 => do
            let (definitions, rest) ← definitions? fuel room true (skipBlanks rest)
            return (← inlineTable? definitions, rest)
      else if c = 't' then word? "true" (.boolean true) text
      else if c = 'f' then word? "false" (.boolean false) text
      else number? text

/-- The items of an array behind its bracket or a comma. -/
def items? (fuel room : Nat) (text : List Char) : Option (List Toml × List Char) :=
  match fuel with
  | 0 => none
  | fuel + 1 =>
      match skipLines text with
      | ']' :: rest => some ([], rest)
      | text => do
          let (item, rest) ← value? fuel room text
          match skipLines rest with
          | ',' :: rest => do
              let (items, rest) ← items? fuel room rest
              return (item :: items, rest)
          | ']' :: rest => return ([item], rest)
          | _ => none

/-- The definitions of a table behind its brace (`first`) or a comma. -/
def definitions? (fuel room : Nat) (first : Bool) (text : List Char) :
    Option (List (List String × Toml) × List Char) :=
  match fuel with
  | 0 => none
  | fuel + 1 =>
      match first, text with
      | true, '}' :: rest => some ([], rest)
      | _, text => do
          let (path, rest) ← key? text
          let rest ← Calendar.readChar? '=' rest
          let (v, rest) ← value? fuel room (skipBlanks rest)
          match skipBlanks rest with
          | ',' :: rest => do
              let (others, rest) ← definitions? fuel room false rest
              return ((path, v) :: others, rest)
          | '}' :: rest => return ([(path, v)], rest)
          | _ => none

end

/-! ## Documents -/

/-- A document while it is read: the sections before the last header, the path of
that header with whether it adds to an array of tables, and the section behind
it. -/
structure Draft where
  root : Section
  path : List String
  isItem : Bool
  current : Section

/-- Put the current section in its place. -/
def Draft.settle (d : Draft) : Option Section :=
  match d.path.getLast? with
  | none => some d.current
  | some name =>
      d.root.alter false (fun parent =>
        if d.isItem then
          match parent.entries.lookup name with
          | some (.sections ss) => some (parent.put name (.sections (ss ++ [d.current])))
          | none => some (parent.put name (.sections [d.current]))
          | _ => none
        else some (parent.put name (.section d.current))) d.path.dropLast

/-- The section at a path, or one without entries. -/
def Section.find (s : Section) : List String → Section
  | [] => s
  | name :: path =>
      match s.entries.lookup name with
      | some (.section t) => t.find path
      | some (.sections ss) => (ss.getLast?.getD .blank).find path
      | _ => .blank

/-- Start the section of a header.  A section that so far was only led through by
other headers is gone on with; any other that exists may not be defined again. -/
def Draft.header (d : Draft) (path : List String) : Option Draft := do
  let root ← d.settle
  let name ← path.getLast?
  let root ← root.alter false some path.dropLast
  match (root.find path.dropLast).entries.lookup name with
  | none => return ⟨root, path, false, .blank⟩
  | some (.section t) =>
      if t.implicit && !t.dotted then
        let root ← root.alter false (fun parent => some (parent.erase name)) path.dropLast
        return ⟨root, path, false, .mk t.entries false false⟩
      else none
  | some _ => none

/-- Start one more table of an array of tables. -/
def Draft.itemHeader (d : Draft) (path : List String) : Option Draft := do
  let root ← d.settle
  let name ← path.getLast?
  let root ← root.alter false some path.dropLast
  match (root.find path.dropLast).entries.lookup name with
  | none => return ⟨root, path, true, .blank⟩
  | some (.sections _) => return ⟨root, path, true, .blank⟩
  | some _ => none

/-- A header or a definition, and what follows it in its line. -/
def Draft.line? (d : Draft) (text : List Char) : Option (Draft × List Char) :=
  match text with
  | '[' :: '[' :: rest => do
      let (path, rest) ← key? rest
      let rest ← Calendar.readChar? ']' rest
      let rest ← Calendar.readChar? ']' rest
      return (← d.itemHeader path, rest)
  | '[' :: rest => do
      let (path, rest) ← key? rest
      let rest ← Calendar.readChar? ']' rest
      return (← d.header path, rest)
  | _ => do
      let (path, rest) ← key? text
      let rest ← Calendar.readChar? '=' rest
      let (v, rest) ← value? (rest.length + 1) nestingLimit (skipBlanks rest)
      let name ← path.getLast?
      let current ← d.current.define path.dropLast name v
      return ({ d with current }, rest)

/-- Read the lines of a document; `fuel` bounds their number. -/
def Draft.lines? (d : Draft) (fuel : Nat) (text : List Char) : Option Draft :=
  match fuel with
  | 0 => none
  | fuel + 1 =>
      match skipLines text with
      | [] => some d
      | text => do
          let (d, rest) ← d.line? text
          let rest ← endOfLine? rest
          d.lines? fuel rest

/-- Read a document, a byte order mark in front of it aside. -/
def parse (s : String) : Option Toml :=
  let text :=
    match s.toList with
    | '\ufeff' :: rest => rest
    | text => text
  do
    let d ← Draft.lines? ⟨.blank, [], false, .blank⟩ (text.length + 1) text
    return ofSection (← d.settle)

end Criteria.Toml
