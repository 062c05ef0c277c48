/-
# Criteria.Compile -- from a condition tree to SQL text and bound values

`compile` filters a tree and renders what is left: the text, the values for its
placeholders in order, and the number of placeholders.  The two numbers differ
only where a fragment has more or fewer question marks than values.

The first condition that survives loses its conjunction, so that the text never
starts with one.
-/
import Criteria.Node.Json
import Criteria.Writer

namespace Criteria

set_option autoImplicit false

structure Compiled where
  sql : String
  params : List Value
  placeholders : Nat

namespace Compiled

def isEmpty (c : Compiled) : Bool :=
  c.sql.isEmpty

def toJson (c : Compiled) : Json :=
  .object [("sql", .string c.sql), ("params", .array (Value.toJsonItems c.params)),
    ("placeholders", .integer c.placeholders)]

end Compiled

/-- Render a tree as it is.  The values are collected before the text is written. -/
def compileUnfiltered (dialect : Dialect) (limit : Nat) (nodes : List Node) :
    Except Fault Compiled :=
  let (c, unbound) := (Collector.blank limit).collect nodes
  match unbound with
  | some f => .error f
  | none =>
      let (w, unwritten) := (Writer.blank dialect limit).write nodes
      match unwritten with
      | some f => .error f
      | none => .ok ⟨w.text, c.params, w.placeholders⟩

/-- A rendering fails as binding does, or else as writing does; what comes out otherwise is
the text with its holes filled, the values and the number of holes. -/
theorem compileUnfiltered_eq (dialect : Dialect) (limit : Nat) (nodes : List Node) :
    compileUnfiltered dialect limit nodes =
      match (bindings limit nodes).failure.or (emit limit nodes).failure with
      | some f => .error f
      | none => .ok ⟨.ofList (fill dialect 0 (layOut (emit limit nodes).written)),
          (bindings limit nodes).written, (layOut (emit limit nodes).written).count .hole⟩ := by
  simp only [compileUnfiltered, Collector.collect, Collector.blank, Writer.write, Writer.blank,
    Writer.text, beside_nil_left, List.nil_append, Nat.zero_add]
  cases (bindings limit nodes).failure with
  | some f => rfl
  | none => cases (emit limit nodes).failure <;> rfl

theorem compileUnfiltered_eq_ok_iff {dialect : Dialect} {limit : Nat} {nodes : List Node}
    {c : Compiled} :
    compileUnfiltered dialect limit nodes = .ok c ↔
      (bindings limit nodes).failure = none ∧ (emit limit nodes).failure = none ∧
        c = ⟨.ofList (fill dialect 0 (layOut (emit limit nodes).written)),
          (bindings limit nodes).written, (layOut (emit limit nodes).written).count .hole⟩ := by
  rw [compileUnfiltered_eq]
  cases (bindings limit nodes).failure with
  | some f => simp
  | none => cases (emit limit nodes).failure <;> simp [eq_comm]

/-- Take the conjunction off the first node. -/
def dropFirstConjunction : List Node → List Node
  | [] => []
  | n :: rest => n.joined .none :: rest

/-- Filter a tree and render it: the tree that is left, and what it compiles to. -/
def compile (ctx : Context) (dialect : Dialect) (nodes : List Node) :
    List Node × Except Fault Compiled :=
  let filtered := filter ctx nodes
  match filtered.failure with
  | some f => (filtered.nodes, .error f)
  | none =>
      let nodes := dropFirstConjunction filtered.nodes
      (nodes, compileUnfiltered dialect ctx.limit nodes)

theorem compile_of_fault {ctx : Context} (dialect : Dialect) {nodes : List Node} {f : Fault}
    (ended : (filter ctx nodes).failure = some f) :
    compile ctx dialect nodes = ((filter ctx nodes).nodes, .error f) := by
  simp only [compile, ended]

theorem compile_of_whole {ctx : Context} (dialect : Dialect) {nodes : List Node}
    (whole : (filter ctx nodes).failure = none) :
    compile ctx dialect nodes =
      (dropFirstConjunction (filter ctx nodes).nodes,
        compileUnfiltered dialect ctx.limit (dropFirstConjunction (filter ctx nodes).nodes)) := by
  simp only [compile, whole]

theorem compile_eq_ok_iff {ctx : Context} {dialect : Dialect} {nodes left : List Node}
    {c : Compiled} :
    compile ctx dialect nodes = (left, .ok c) ↔
      (filter ctx nodes).failure = none ∧ left = dropFirstConjunction (filter ctx nodes).nodes ∧
        compileUnfiltered dialect ctx.limit left = .ok c := by
  simp only [compile]
  cases (filter ctx nodes).failure with
  | some f => simp
  | none =>
      simp only [Prod.mk.injEq, true_and]
      constructor
      · rintro ⟨rfl, compiled⟩
        exact ⟨rfl, compiled⟩
      · rintro ⟨rfl, compiled⟩
        exact ⟨rfl, compiled⟩

end Criteria
