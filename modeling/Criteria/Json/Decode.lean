/-
# Criteria.Json.Decode -- reading values off a document

The readers of the parts that all formats share.  They go through a document
from left to right and stop at the first fault.  `room` is the number of
containers that may still be opened: a text with 128 open at once is refused.
`Document.toJson` is the plain JSON value of a document without any fault.
-/
import Criteria.Json.Document

namespace Criteria.Json

set_option autoImplicit false

/-- The most containers that may be open at once. -/
def nestingLimit : Nat := 127

/-- Open a container: the room that is left in it. -/
def enter : Nat → Except Fault Nat
  | 0 => .error .malformed
  | room + 1 => .ok room

/-- Reach the end of a container. -/
def reachEnd : Option Fault → Except Fault Unit
  | none => .ok ()
  | some f => .error f

namespace Document

/-- Refuse a document where something else was expected; one that cannot be read
is refused for that. -/
def unexpected (expected : String) : Document → Fault
  | .null => .mismatch (.invalidType .null expected)
  | .bool b => .mismatch (.invalidType (.bool b) expected)
  | .number (.ok (.integer n)) => .mismatch (.invalidType (.integer n) expected)
  | .number (.ok (.float x)) => .mismatch (.invalidType (.float x) expected)
  | .number (.ok _) => .malformed
  | .number (.error f) => f
  | .string (.ok s) => .mismatch (.invalidType (.string s) expected)
  | .string (.error f) => f
  | .array _ _ => .mismatch (.invalidType .array expected)
  | .object _ _ => .mismatch (.invalidType .object expected)
  | .broken f _ => f

def toText : Document → Except Fault String
  | .string text => text
  | d => .error (d.unexpected "a string")

def toBool : Document → Except Fault Bool
  | .bool b => .ok b
  | d => .error (d.unexpected "a boolean")

/-- The one of several variants that has a name. -/
def findVariant {α : Type} (variants : List (String × α)) (name : String) : Except Fault α :=
  match variants.lookup name with
  | some a => .ok a
  | none => .error (.mismatch (.unknownVariant name (variants.map Prod.fst)))

/-- One of several variants: its name, or an object with the name as its only
field and nothing in it. -/
def toVariant {α : Type} (room : Nat) (variants : List (String × α)) : Document → Except Fault α
  | .string text => text.bind (findVariant variants)
  | .object fields stop => do
      let _ ← enter room
      match fields with
      | [] => do
          reachEnd stop
          throw .malformed
      | (name, content) :: others => do
          let a ← name.bind (findVariant variants)
          match content with
          | .null => pure ()
          | d => throw (d.unexpected "unit")
          if others.isEmpty then
            reachEnd stop
            return a
          else throw .malformed
  | .broken _ f => .error f
  | _ => .error .malformed

/-! ## Plain values -/

mutual

/-- The JSON value of a document, all of it demanded. -/
def toJson (room : Nat) : Document → Except Fault Json
  | .null => .ok .null
  | .bool b => .ok (.bool b)
  | .number value => value
  | .string text => text.map .string
  | .array items stop => do
      let inner ← enter room
      let items ← toJsonItems inner items
      reachEnd stop
      return .array items
  | .object fields stop => do
      let inner ← enter room
      let fields ← toJsonFields inner fields
      reachEnd stop
      return .object fields
  | .broken f _ => .error f

def toJsonItems (room : Nat) : List Document → Except Fault (List Json)
  | [] => .ok []
  | d :: rest => do
      let item ← d.toJson room
      return item :: (← toJsonItems room rest)

def toJsonFields (room : Nat) : List (Name × Document) → Except Fault (List (String × Json))
  | [] => .ok []
  | (name, d) :: rest => do
      let name ← name
      let value ← d.toJson room
      return (name, value) :: (← toJsonFields room rest)

end

end Document

/-- Read a whole text with a reader of documents: the reader's fault comes first,
then whatever is behind the value. -/
def decode {α : Type} (read : Nat → Document → Except Fault α) (text : String) : Except Fault α :=
  let (d, behind) := Document.ofText text.toList
  do
    let a ← read nestingLimit d
    reachEnd behind
    return a

end Criteria.Json
