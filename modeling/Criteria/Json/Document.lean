/-
# Criteria.Json.Document -- a JSON text as far as it can be read

`Document.ofText` never fails.  It gives the value that a text starts out to
write, and marks the place where the text stops being JSON: a container knows
whether its end was reached (`stop`), and a value that could not be read is
`broken`.  Whoever reads a document from left to right therefore meets the first
thing wrong with it, be it the text's form or its content, and a fault behind a
value that is refused anyway is never looked at.

The containers that are still open form a stack; each lexeme moves a `Cursor` by
one `step`, so reading is a fold over the lexemes.
-/
import Criteria.Json.Lexeme

namespace Criteria.Json

set_option autoImplicit false

/-- The name of a field, or the fault of reading it. -/
abbrev Name : Type :=
  Except Fault String

/-- A JSON text as far as it can be read. -/
inductive Document where
  | null
  | bool (b : Bool)
  | number (value : Except Fault Json)
  | string (text : Except Fault String)
  /-- `stop` is the fault met where a comma or the end of the array was due -/
  | array (items : List Document) (stop : Option Fault)
  | object (fields : List (Name × Document)) (stop : Option Fault)
  /-- no value stands here; `asVariant` is the fault to one who looks for a name -/
  | broken (f asVariant : Fault)

/-- A container whose end has not been reached, its content last first. -/
inductive Frame where
  | array (items : List Document)
  | object (fields : List (Name × Document)) (name : Name)

/-- What may come next. -/
inductive Cursor where
  /-- a value -/
  | atValue (outer : List Frame)
  /-- the first item of an array, or its end -/
  | atFirstItem (outer : List Frame)
  /-- a field name; the end of the object only if there are no fields yet -/
  | atName (fields : List (Name × Document)) (outer : List Frame)
  | atColon (fields : List (Name × Document)) (name : Name) (outer : List Frame)
  /-- a comma or the end of the innermost container, behind a value -/
  | afterValue (d : Document) (outer : List Frame)
  /-- nothing: the fault was met -/
  | stuck (d : Document) (f : Fault)

/-- A frame left behind its last value, for a fault if there is one. -/
def Frame.close (d : Document) (stop : Option Fault) : Frame → Document
  | .array items => .array (d :: items).reverse stop
  | .object fields name => .object ((name, d) :: fields).reverse stop

/-- The whole document when all open containers are left for a fault. -/
def leave (d : Document) (f : Fault) (outer : List Frame) : Document :=
  outer.foldl (fun inner frame => frame.close inner (some f)) d

/-- An object whose last name could not be read. -/
def unnamed (fields : List (Name × Document)) (strict lax : Fault) : Document :=
  .object ((.error strict, .broken strict strict) :: fields).reverse (some lax)

namespace Cursor

def abandon (d : Document) (f : Fault) (outer : List Frame) : Cursor :=
  .stuck (leave d f outer) f

/-- Read a lexeme where a value is due. -/
def stepValue (outer : List Frame) : Lexeme → Cursor
  | .null => .afterValue .null outer
  | .bool b => .afterValue (.bool b) outer
  | .number value => .afterValue (.number value) outer
  | .string text => .afterValue (.string text) outer
  | .openArray => .atFirstItem outer
  | .openObject => .atName [] outer
  | .bad strict lax => abandon (.broken strict .malformed) lax outer
  | .badString strict lax => abandon (.broken strict strict) lax outer
  | _ => abandon (.broken .malformed .malformed) .malformed outer

def step : Cursor → Lexeme → Cursor
  | .atValue outer, l => stepValue outer l
  | .atFirstItem outer, .closeArray => .afterValue (.array [] none) outer
  | .atFirstItem outer, l => stepValue (.array [] :: outer) l
  | .atName fields outer, .string text => .atColon fields text outer
  | .atName [] outer, .closeObject => .afterValue (.object [] none) outer
  | .atName fields outer, .badString strict lax => abandon (unnamed fields strict lax) lax outer
  | .atName fields outer, _ => abandon (unnamed fields .malformed .malformed) .malformed outer
  | .atColon fields name outer, .colon => .atValue (.object fields name :: outer)
  | .atColon fields name outer, _ =>
      abandon (.broken .malformed .malformed) .malformed (.object fields name :: outer)
  | .afterValue d (.array items :: outer), .comma => .atValue (.array (d :: items) :: outer)
  | .afterValue d (.array items :: outer), .closeArray =>
      .afterValue ((Frame.array items).close d none) outer
  | .afterValue d (.object fields name :: outer), .comma => .atName ((name, d) :: fields) outer
  | .afterValue d (.object fields name :: outer), .closeObject =>
      .afterValue ((Frame.object fields name).close d none) outer
  | .afterValue d (frame :: outer), _ => abandon (frame.close d (some .malformed)) .malformed outer
  | .afterValue d [], _ => .stuck d .malformed
  | .stuck d f, _ => .stuck d f

/-- The fault at the end of the text: none behind a whole value. -/
def fault? : Cursor → Option Fault
  | .afterValue _ [] => none
  | .stuck _ f => some f
  | _ => some .truncated

/-- The document at the end of the text. -/
def document : Cursor → Document
  | .stuck d _ => d
  | .atValue outer => leave (.broken .truncated .truncated) .truncated outer
  | .atFirstItem outer => leave (.array [] (some .truncated)) .truncated outer
  | .atName [] outer => leave (.object [] (some .truncated)) .truncated outer
  | .atName fields outer => leave (unnamed fields .truncated .truncated) .truncated outer
  | .atColon fields name outer =>
      leave (.broken .truncated .truncated) .truncated (.object fields name :: outer)
  | .afterValue d outer => leave d .truncated outer

end Cursor

/-- Read a text: the document, and the fault met in it or behind it. -/
def Document.ofText (text : List Char) : Document × Option Fault :=
  let last := (lexemes text).foldl Cursor.step (.atValue [])
  (last.document, last.fault?)

end Criteria.Json
