/-
# Criteria.Node.Json -- condition trees as JSON

A node is an object with the fields `conjunction`, `key`, `predicate`, `value` and
`sub_list`, or an array of these five in order.  Only the predicate has to be
there.  The key is plain text; the predicate decides how it is read: a group has
no key, a fragment keeps the text, and every other node names a field with it.

A node whose key cannot be read is refused when the node is complete, after
everything that is wrong inside it.
-/
import Criteria.Node
import Criteria.Value.Json

namespace Criteria.Node

set_option autoImplicit false

open Json (Document Name)

/-! ## Writing -/

mutual

def toJson : Node → Json
  | ⟨conjunction, key, predicate, value, children⟩ =>
      .object <|
        [("conjunction", .string conjunction.name), ("key", .string key.text),
          ("predicate", .string predicate.name), ("value", value.toJson)] ++
        if children.isEmpty then [] else [("sub_list", .array (toJsonAll children))]

def toJsonAll : List Node → List Json
  | [] => []
  | n :: rest => n.toJson :: toJsonAll rest

end

/-- The JSON text of a list of nodes. -/
def serialize (nodes : List Node) : String :=
  (Json.array (toJsonAll nodes)).compact

/-! ## Reading -/

/-- The fields of a node that have been met. -/
structure Draft where
  conjunction : Option Conjunction
  key : Option String
  predicate : Option Predicate
  value : Option Value
  children : Option (List Node)

def Draft.blank : Draft :=
  ⟨none, none, none, none, none⟩

/-- The key that a text is under a predicate. -/
def keyFor (predicate : Predicate) (text : String) : Except String Key :=
  match predicate with
  | .group => .ok .none
  | .fragment => .ok (.raw text)
  | _ => (Path.parse text).map .path

/-- The node of the fields met, `missing` being the fault of a node without a
predicate. -/
def Draft.finish (d : Draft) (missing : Json.Mismatch) : Except Json.Fault Node :=
  match d.predicate with
  | none => .error (.mismatch missing)
  | some predicate =>
      match keyFor predicate (d.key.getD "") with
      | .error text => .error (.mismatch (.refused (Fault.invalidKey text).message))
      | .ok key =>
          .ok ⟨d.conjunction.getD .none, key, predicate, d.value.getD .null, d.children.getD []⟩

def repeated (name : String) : Json.Fault :=
  .mismatch (.duplicateField name)

/-- What a node is called in messages. -/
def typeName : String := "struct WireBlock"

mutual

/-- Read a node off a document. -/
def ofDocument (room : Nat) : Document → Except Json.Fault Node
  | .object fields stop => do
      let inner ← Json.enter room
      let draft ← readFields inner .blank fields
      Json.reachEnd stop
      draft.finish (.missingField "predicate")
  | .array items stop => do
      let inner ← Json.enter room
      let draft ← readSlots inner 0 .blank items
      Json.reachEnd stop
      draft.finish (.invalidLength 2 (typeName ++ " with 5 elements"))
  | d => .error (d.unexpected typeName)

/-- Read the fields of an object into a draft; those with other names are passed
over. -/
def readFields (room : Nat) (draft : Draft) : List (Name × Document) → Except Json.Fault Draft
  | [] => .ok draft
  | (name, d) :: rest => do
      match ← name with
      | "conjunction" =>
          if draft.conjunction.isSome then throw (repeated "conjunction")
          let conjunction ← d.toVariant room Conjunction.named
          readFields room { draft with conjunction := some conjunction } rest
      | "key" =>
          if draft.key.isSome then throw (repeated "key")
          let key ← d.toText
          readFields room { draft with key := some key } rest
      | "predicate" =>
          if draft.predicate.isSome then throw (repeated "predicate")
          let predicate ← d.toVariant room Predicate.named
          readFields room { draft with predicate := some predicate } rest
      | "value" =>
          if draft.value.isSome then throw (repeated "value")
          let value ← Value.ofDocument room d
          readFields room { draft with value := some value } rest
      | "sub_list" | "subNodes" =>
          if draft.children.isSome then throw (repeated "sub_list")
          let children ← readList room d
          readFields room { draft with children := some children } rest
      | _ => readFields room draft rest

/-- Read the items of an array into a draft, from the given place on. -/
def readSlots (room : Nat) (place : Nat) (draft : Draft) :
    List Document → Except Json.Fault Draft
  | [] => .ok draft
  | d :: rest => do
      match place with
      | 0 =>
          let conjunction ← d.toVariant room Conjunction.named
          readSlots room 1 { draft with conjunction := some conjunction } rest
      | 1 =>
          let key ← d.toText
          readSlots room 2 { draft with key := some key } rest
      | 2 =>
          let predicate ← d.toVariant room Predicate.named
          readSlots room 3 { draft with predicate := some predicate } rest
      | 3 =>
          let value ← Value.ofDocument room d
          readSlots room 4 { draft with value := some value } rest
      | 4 =>
          let children ← readList room d
          readSlots room 5 { draft with children := some children } rest
      | _ => throw .malformed

/-- Read a list of nodes off a document. -/
def readList (room : Nat) : Document → Except Json.Fault (List Node)
  | .array items stop => do
      let inner ← Json.enter room
      let nodes ← readItems inner items
      Json.reachEnd stop
      return nodes
  | d => .error (d.unexpected "a sequence")

def readItems (room : Nat) : List Document → Except Json.Fault (List Node)
  | [] => .ok []
  | d :: rest => do
      let n ← ofDocument room d
      return n :: (← readItems room rest)

end

/-- Read a JSON text as a list of nodes. -/
def parseAll (text : String) : Except Fault (List Node) :=
  match Json.decode readList text with
  | .ok nodes => .ok nodes
  | .error f => .error (.json f)

/-- Read a JSON text as one node. -/
def parse (text : String) : Except Fault Node :=
  match Json.decode ofDocument text with
  | .ok n => .ok n
  | .error f => .error (.json f)

end Criteria.Node
