/-
# Criteria.Writer -- SQL text and bound values, growing

A `Writer` holds text and counts placeholders, a `Collector` holds values.  Both
take one condition tree after another and go on where they were, also after a
fault.

A tree is laid out as pieces before any placeholder is spelled (`layOut`), so the
dialect changes nothing but the spelling (`fill`).
-/
import Criteria.Dialect
import Criteria.Emission

namespace Criteria

set_option autoImplicit false

/-- Put a text behind another with a blank between them; an empty text leaves no
trace. -/
def beside {α : Type} (blank : α) (before after : List α) : List α :=
  if before.isEmpty then after
  else if after.isEmpty then before
  else before ++ blank :: after

theorem beside_nil_left {α : Type} (blank : α) (text : List α) : beside blank [] text = text :=
  rfl

theorem beside_nil_right {α : Type} (blank : α) (text : List α) : beside blank text [] = text := by
  cases text <;> rfl

theorem beside_of_ne_nil {α : Type} (blank : α) {before after : List α} (some_ : before ≠ [])
    (more : after ≠ []) : beside blank before after = before ++ blank :: after := by
  rw [beside, if_neg (mt List.isEmpty_iff.mp some_), if_neg (mt List.isEmpty_iff.mp more)]

theorem beside_eq_nil_iff {α : Type} {blank : α} {before after : List α} :
    beside blank before after = [] ↔ before = [] ∧ after = [] := by
  cases before <;> cases after <;> simp [beside]

/-- Of three texts it does not matter which two are put together first. -/
theorem beside_assoc {α : Type} (blank : α) (a b c : List α) :
    beside blank (beside blank a b) c = beside blank a (beside blank b c) := by
  cases a with
  | nil => rfl
  | cons x a => cases b <;> cases c <;> simp [beside]

/-- The text of several tokens. -/
def layOut : List Token → List Piece
  | [] => []
  | t :: rest => beside (.char ' ') t.pieces (layOut rest)

theorem layOut_append (before after : List Token) :
    layOut (before ++ after) = beside (.char ' ') (layOut before) (layOut after) := by
  induction before with
  | nil => rfl
  | cons t rest ih => rw [List.cons_append, layOut, layOut, ih, beside_assoc]

/-- The characters of a text, its holes filled with the placeholders after the
`count`-th. -/
def fill (dialect : Dialect) (count : Nat) : List Piece → List Char
  | [] => []
  | .char c :: rest => c :: fill dialect count rest
  | .hole :: rest => dialect.placeholder (count + 1) ++ fill dialect (count + 1) rest

@[simp] theorem fill_map_char (dialect : Dialect) (count : Nat) (text : List Char) :
    fill dialect count (text.map .char) = text := by
  induction text with
  | nil => rfl
  | cons c text ih => rw [List.map_cons, fill, ih]

theorem fill_append (dialect : Dialect) (count : Nat) (before after : List Piece) :
    fill dialect count (before ++ after) =
      fill dialect count before ++ fill dialect (count + before.count .hole) after := by
  induction before generalizing count with
  | nil => rfl
  | cons piece before ih =>
      cases piece with
      | char c => simp [fill, ih]
      | hole =>
          have next : count + 1 + before.count .hole = count + (before.count .hole + 1) := by omega
          simp [fill, ih, next]

theorem fill_eq_nil_iff {dialect : Dialect} {count : Nat} {pieces : List Piece} :
    fill dialect count pieces = [] ↔ pieces = [] := by
  obtain _ | ⟨_ | _, pieces⟩ := pieces <;> simp [fill, Dialect.placeholder_ne_nil]

/-- Of two texts side by side the second goes on counting after the holes of the
first. -/
theorem fill_beside (dialect : Dialect) (count : Nat) (before after : List Piece) :
    fill dialect count (beside (.char ' ') before after) =
      beside ' ' (fill dialect count before)
        (fill dialect (count + before.count .hole) after) := by
  by_cases some_ : before = []
  · subst some_
    rfl
  by_cases more : after = []
  · subst more
    rw [beside_nil_right, fill, beside_nil_right]
  · rw [beside_of_ne_nil _ some_ more, fill_append, fill,
      beside_of_ne_nil _ (mt fill_eq_nil_iff.mp some_) (mt fill_eq_nil_iff.mp more)]

@[simp] theorem count_hole_beside (before after : List Piece) :
    (beside (.char ' ') before after).count .hole = before.count .hole + after.count .hole := by
  by_cases some_ : before = []
  · subst some_
    exact (Nat.zero_add _).symm
  by_cases more : after = []
  · subst more
    rw [beside_nil_right]
    rfl
  · rw [beside_of_ne_nil _ some_ more, List.count_append, List.count_cons_of_ne (by decide)]

/-- SQL text that grows tree by tree. -/
structure Writer where
  dialect : Dialect
  limit : Nat
  sql : List Char
  /-- the placeholders written so far -/
  placeholders : Nat

namespace Writer

def blank (dialect : Dialect) (limit : Nat) : Writer :=
  ⟨dialect, limit, [], 0⟩

/-- Write a condition tree: the writer afterwards, and the fault that ended the
writing, if one did. -/
def write (w : Writer) (nodes : List Node) : Writer × Option Fault :=
  let e := emit w.limit nodes
  let laidOut := layOut e.written
  ({ w with
      sql := beside ' ' w.sql (fill w.dialect w.placeholders laidOut)
      placeholders := w.placeholders + laidOut.count .hole }, e.failure)

/-- It is the tree that ends the writing, and not what was written before. -/
theorem write_failure (w : Writer) (nodes : List Node) :
    (w.write nodes).2 = (emit w.limit nodes).failure :=
  rfl

def text (w : Writer) : String :=
  .ofList w.sql

end Writer

/-- Bound values in the order of their placeholders. -/
structure Collector where
  limit : Nat
  params : List Value

namespace Collector

def blank (limit : Nat) : Collector :=
  ⟨limit, []⟩

/-- Collect the values of a condition tree. -/
def collect (c : Collector) (nodes : List Node) : Collector × Option Fault :=
  let e := bindings c.limit nodes
  ({ c with params := c.params ++ e.written }, e.failure)

theorem collect_failure (c : Collector) (nodes : List Node) :
    (c.collect nodes).2 = (bindings c.limit nodes).failure :=
  rfl

end Collector

/-- The SQL text of a condition tree. -/
def render (dialect : Dialect) (nodes : List Node) : Except Fault String :=
  let (w, failure) := (Writer.blank dialect defaultLimit).write nodes
  match failure with
  | some f => .error f
  | none => .ok w.text

/-- A text comes of a writing that ends without a fault, and its fault of any other. -/
theorem render_eq (dialect : Dialect) (nodes : List Node) :
    render dialect nodes =
      match ((Writer.blank dialect defaultLimit).write nodes).2 with
      | some f => .error f
      | none => .ok ((Writer.blank dialect defaultLimit).write nodes).1.text :=
  rfl

theorem exists_render_eq_ok_iff {dialect : Dialect} {nodes : List Node} :
    (∃ text, render dialect nodes = .ok text) ↔
      ((Writer.blank dialect defaultLimit).write nodes).2 = none := by
  rw [render_eq]
  cases ((Writer.blank dialect defaultLimit).write nodes).2 <;> simp

/-- The values that a condition tree binds. -/
def flatten (nodes : List Node) : Except Fault (List Value) :=
  let (c, failure) := (Collector.blank defaultLimit).collect nodes
  match failure with
  | some f => .error f
  | none => .ok c.params

/-- Values come of a collecting that ends without a fault, and its fault of any other. -/
theorem flatten_eq (nodes : List Node) :
    flatten nodes =
      match ((Collector.blank defaultLimit).collect nodes).2 with
      | some f => .error f
      | none => .ok ((Collector.blank defaultLimit).collect nodes).1.params :=
  rfl

theorem exists_flatten_eq_ok_iff {nodes : List Node} :
    (∃ values, flatten nodes = .ok values) ↔
      ((Collector.blank defaultLimit).collect nodes).2 = none := by
  rw [flatten_eq]
  cases ((Collector.blank defaultLimit).collect nodes).2 <;> simp

theorem flatten_eq_error_iff {nodes : List Node} {f : Fault} :
    flatten nodes = .error f ↔ ((Collector.blank defaultLimit).collect nodes).2 = some f := by
  rw [flatten_eq]
  cases ((Collector.blank defaultLimit).collect nodes).2 <;> simp

end Criteria
