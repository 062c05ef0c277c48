/-
# Criteria.Filter -- conditions that constrain nothing are dropped

`filter` walks a condition tree with the tables it is about.  A comparison whose
value is null, or the zero of a primitive column, goes; so does a membership of
one such item, and a group with nothing left in it.  The values of the
comparisons that stay are made to fit their columns.

The first fault ends the walk.  What is left then is the tree as far as it was
walked: the nodes before the fault filtered, the node at fault and all nodes after
it as they were, at every level (`Filtered.nodes`).
-/
import Criteria.Node
import Criteria.Schema.Coercion

namespace Criteria

set_option autoImplicit false

/-- Groups may be nested this deep unless told otherwise. -/
def defaultLimit : Nat := 64

/-- What keys are resolved against.  A later entry of an alias stands before an
earlier one. -/
structure Context where
  catalog : Catalog
  /-- the table of keys without alias -/
  primary : String
  aliases : List (String × String)
  coercion : Coercion
  /-- the deepest level of groups -/
  limit : Nat

/-- A forest after filtering, and the fault that ended it, if one did. -/
structure Filtered where
  nodes : List Node
  failure : Option Fault

/-- What becomes of one node. -/
inductive Verdict where
  | dropped
  | kept (n : Node)
  | failed (n : Node) (f : Fault)

/-- The items of a membership: a value that is no array is its only item. -/
def Value.members : Value → List Value
  | .array items => items
  | .null => []
  | v => [v]

/-- The items of a membership, of which there has to be one. -/
def members? (key : Key) (v : Value) : Except Fault (List Value) :=
  match v.members with
  | [] => .error (.emptyMembership key.text)
  | items => .ok items

namespace Context

/-- The name of the table that a path belongs to.  An alias that is not mapped is
the name itself. -/
def schemaName (ctx : Context) (p : Path) : String :=
  match p.qualifier with
  | some name => (ctx.aliases.lookup name).getD name
  | none => ctx.primary

def resolve (ctx : Context) (p : Path) : Except Fault TableView :=
  ctx.catalog.resolve (ctx.schemaName p)

/-- The field that a key names, and its table. -/
def locate (ctx : Context) : Key → Except Fault (String × TableView)
  | .path p => do return (p.field, ← ctx.resolve p)
  | key => .error (.invalidKey key.text)

/-- What a comparison compares with, after coercion; `none` when it constrains
nothing. -/
def judgeComparison (ctx : Context) (key : Key) (v : Value) : Except Fault (Option Value) := do
  let (field, table) ← ctx.locate key
  if table.redundant field v then return none
  match table.type? field with
  | none => throw (.undeclaredField table.name field)
  | some type =>
      let v := ctx.coercion type v
      return if v.isNull then none else some v

/-- Only a membership of a single item can be redundant. -/
def judgeMembership (ctx : Context) (key : Key) (v : Value) : Except Fault (Option Value) := do
  match ← members? key v with
  | [item] =>
      let (field, table) ← ctx.locate key
      return if table.redundant field item then none else some v
  | _ => return some v

/-- Judge a node by itself, its children aside: the value it stays with, or `none`
when it is dropped. -/
def judge (ctx : Context) (key : Key) (predicate : Predicate) (v : Value) :
    Except Fault (Option Value) :=
  match predicate with
  | .compare _ => ctx.judgeComparison key v
  | .member _ => ctx.judgeMembership key v
  | _ => .ok (some v)

end Context

mutual

/-- Filter one node, `depth` levels down. -/
def filterNode (ctx : Context) (depth : Nat) : Node → Verdict
  | ⟨conjunction, key, predicate, v, children⟩ =>
      match ctx.judge key predicate v with
      | .error f => .failed ⟨conjunction, key, predicate, v, children⟩ f
      | .ok none => .dropped
      | .ok (some v) =>
          let inner : Filtered :=
            if predicate ≠ .group ∧ children.isEmpty then ⟨[], none⟩
            else if ctx.limit < depth + 1 then ⟨children, some (.nestingTooDeep ctx.limit)⟩
            else filterAll ctx (depth + 1) children
          let n : Node := ⟨conjunction, key, predicate, v, inner.nodes⟩
          match inner.failure with
          | some f => .failed n f
          | none => if predicate = .group ∧ inner.nodes.isEmpty then .dropped else .kept n

/-- Filter a list of nodes, `depth` levels down. -/
def filterAll (ctx : Context) (depth : Nat) : List Node → Filtered
  | [] => ⟨[], none⟩
  | n :: rest =>
      match filterNode ctx depth n with
      | .dropped => filterAll ctx depth rest
      | .kept n =>
          let after := filterAll ctx depth rest
          ⟨n :: after.nodes, after.failure⟩
      | .failed n f => ⟨n :: rest, some f⟩

end

/-- Filter a condition tree. -/
def filter (ctx : Context) (nodes : List Node) : Filtered :=
  filterAll ctx 0 nodes

end Criteria
