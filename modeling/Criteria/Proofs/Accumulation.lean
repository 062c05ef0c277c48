/-
# Criteria.Proofs.Accumulation -- writing and collecting go on where they were

To write one list of conditions behind another is to write the two in one
(`emitAll_append`), and so it is for the collected values.  A step with this law is
`Cumulative`: any number of lists can be taken in turn or all at once
(`Cumulative.eachInTurn_eq`), and in either way the first fault ends it.

What a writer adds to a text that it already holds is what a new writer would write,
with a blank before it and the placeholders counted on (`Resumes`).
-/
import Criteria.Proofs.Spellings

namespace Criteria

set_option autoImplicit false

/-! ## One list behind another -/

/-- The second of two lists is written behind the first.  It leads only where the first has
nothing to write. -/
theorem emitAll_append (limit depth : Nat) (before after : List Node) :
    ∀ leading, emitAll limit depth leading (before ++ after) =
      (emitAll limit depth leading before).followedBy
        (emitAll limit depth (leading && before.all Node.isEmptyGroup) after) := by
  induction before with
  | nil =>
      intro leading
      rw [List.nil_append, emitAll, Emitted.nothing_followedBy, List.all_nil, Bool.and_true]
  | cons n rest ih =>
      intro leading
      rw [List.cons_append, emitAll, emitAll, List.all_cons]
      by_cases empty : n.isEmptyGroup = true
      · rw [if_pos empty, if_pos empty, ih, empty, Bool.true_and]
      · have speaks : n.isEmptyGroup = false := Bool.eq_false_iff.mpr empty
        rw [if_neg empty, if_neg empty, ih, Emitted.followedBy_assoc, speaks, Bool.false_and,
          Bool.and_false]

/-- At the root no node leads. -/
theorem emit_append (limit : Nat) (before after : List Node) :
    emit limit (before ++ after) = (emit limit before).followedBy (emit limit after) :=
  emitAll_append limit 0 before after false

theorem bindAll_append (limit depth : Nat) (before after : List Node) :
    bindAll limit depth (before ++ after) =
      (bindAll limit depth before).followedBy (bindAll limit depth after) := by
  induction before with
  | nil => rw [List.nil_append, bindAll, Emitted.nothing_followedBy]
  | cons n rest ih => rw [List.cons_append, bindAll, bindAll, ih, Emitted.followedBy_assoc]

theorem bindings_append (limit : Nat) (before after : List Node) :
    bindings limit (before ++ after) = (bindings limit before).followedBy (bindings limit after) :=
  bindAll_append limit 0 before after

/-! ## Steps that take lists in turn -/

section Steps

variable {σ : Type}

/-- Go on from where a step has ended, unless it ended in a fault. -/
def proceed (done : σ × Option Fault) (next : σ → σ × Option Fault) : σ × Option Fault :=
  match done.2 with
  | some _ => done
  | none => next done.1

theorem proceed_of_fault (done : σ × Option Fault) {f : Fault} (ended : done.2 = some f)
    (next : σ → σ × Option Fault) : proceed done next = done := by
  rw [proceed, ended]

theorem proceed_of_whole (done : σ × Option Fault) (whole : done.2 = none)
    (next : σ → σ × Option Fault) : proceed done next = next done.1 := by
  rw [proceed, whole]

/-- Take one list after the other, up to the first fault. -/
def eachInTurn (step : σ → List Node → σ × Option Fault) (s : σ) :
    List (List Node) → σ × Option Fault
  | [] => (s, none)
  | nodes :: later => proceed (step s nodes) (eachInTurn step · later)

/-- A step that takes two lists in one as it takes them in turn. -/
structure Cumulative (step : σ → List Node → σ × Option Fault) : Prop where
  nil : ∀ s, step s [] = (s, none)
  append : ∀ s before after, step s (before ++ after) = proceed (step s before) (step · after)

/-- **Such a step takes any number of lists in one as it takes them in turn.** -/
theorem Cumulative.eachInTurn_eq {step : σ → List Node → σ × Option Fault}
    (cumulative : Cumulative step) (lists : List (List Node)) :
    ∀ s, eachInTurn step s lists = step s lists.flatten := by
  induction lists with
  | nil => exact fun s => (cumulative.nil s).symm
  | cons nodes later ih =>
      intro s
      rw [eachInTurn, List.flatten_cons, cumulative.append, funext ih]

end Steps

theorem Writer.cumulative_write : Cumulative Writer.write where
  nil := by
    intro w
    have unchanged : beside ' ' w.sql [] = w.sql := beside_nil_right ' ' w.sql
    change ({ w with sql := beside ' ' w.sql [] }, none) = (w, none)
    rw [unchanged]
  append := by
    intro w before after
    cases ended : (emit w.limit before).failure with
    | some f =>
        have halted : emit w.limit (before ++ after) = emit w.limit before := by
          rw [emit_append, Emitted.followedBy, ended]
        rw [proceed_of_fault (w.write before) ended, Writer.write, Writer.write, halted]
    | none =>
        rw [proceed_of_whole (w.write before) ended]
        simp only [Writer.write, emit_append, Emitted.followedBy_written ended,
          Emitted.followedBy_failure, ended, Option.none_or, layOut_append, fill_beside,
          beside_assoc, count_hole_beside, Nat.add_assoc]

theorem Collector.cumulative_collect : Cumulative Collector.collect where
  nil := by
    intro c
    change ({ c with params := c.params ++ [] }, none) = (c, none)
    rw [List.append_nil]
  append := by
    intro c before after
    cases ended : (bindings c.limit before).failure with
    | some f =>
        have halted : bindings c.limit (before ++ after) = bindings c.limit before := by
          rw [bindings_append, Emitted.followedBy, ended]
        rw [proceed_of_fault (c.collect before) ended, Collector.collect,
          Collector.collect, halted]
    | none =>
        rw [proceed_of_whole (c.collect before) ended]
        simp only [Collector.collect, bindings_append, Emitted.followedBy_written ended,
          Emitted.followedBy_failure, ended, Option.none_or, List.append_assoc]

/-! ## Going on behind a text -/

theorem weave_cons_cons (spelling : Nat → List Char) (count : Nat) (text next : List Char)
    (more : List (List Char)) :
    weave spelling count (text :: next :: more) =
      text ++ spelling (count + 1) ++ weave spelling (count + 1) (next :: more) :=
  rfl

/-- To count on from a later number is to spell each number as one that is so much greater. -/
theorem weave_shift (spelling : Nat → List Char) (offset : Nat) (texts : List (List Char)) :
    ∀ count, weave spelling (offset + count) texts =
      weave (fun k => spelling (offset + k)) count texts := by
  induction texts with
  | nil => exact fun _ => rfl
  | cons text more ih =>
      intro count
      cases more with
      | nil => rfl
      | cons next more =>
          rw [weave_cons_cons, weave_cons_cons, Nat.add_assoc, ih (count + 1)]

/-- A writer of the same kind that has written nothing yet. -/
def Writer.anew (w : Writer) : Writer :=
  .blank w.dialect w.limit

/-- The texts between the placeholders that a writer writes for a list. -/
def Writer.texts (w : Writer) (nodes : List Node) : List (List Char) :=
  gaps (layOut (emit w.limit nodes).written)

/-- A writer that holds a text writes a list as a new writer does, further on. -/
structure Resumes (w : Writer) (nodes : List Node) : Prop where
  dialect : (w.write nodes).1.dialect = w.dialect
  limit : (w.write nodes).1.limit = w.limit
  failure : (w.write nodes).2 = (w.anew.write nodes).2
  placeholders : (w.write nodes).1.placeholders =
    w.placeholders + (w.anew.write nodes).1.placeholders
  /-- where nothing is written, the text stays without a blank behind it -/
  silent : (w.anew.write nodes).1.sql = [] → (w.write nodes).1.sql = w.sql
  /-- there is one text more than there are placeholders -/
  length : (w.texts nodes).length = (w.anew.write nodes).1.placeholders + 1
  asked : (w.anew.write nodes).1.sql ≠ [] → w.dialect = .question →
    (w.write nodes).1.sql = w.sql ++ ' ' :: (w.anew.write nodes).1.sql
  /-- each number is greater by the placeholders that were there before -/
  counted : (w.anew.write nodes).1.sql ≠ [] → w.dialect = .postgres →
    (w.anew.write nodes).1.sql =
        weave (fun k => '$' :: Nat.toDigits 10 k) 0 (w.texts nodes) ∧
      (w.write nodes).1.sql = w.sql ++ ' ' ::
        weave (fun k => '$' :: Nat.toDigits 10 (w.placeholders + k)) 0 (w.texts nodes)

theorem Writer.anew_sql (w : Writer) (nodes : List Node) :
    (w.anew.write nodes).1.sql = weave w.dialect.placeholder 0 (w.texts nodes) :=
  fill_eq_weave w.dialect _ 0

theorem Writer.anew_placeholders (w : Writer) (nodes : List Node) :
    (w.anew.write nodes).1.placeholders = (layOut (emit w.limit nodes).written).count .hole :=
  Nat.zero_add _

/-- What comes behind a text is the new one, its placeholders counted on. -/
theorem Writer.write_sql (w : Writer) (nodes : List Node) :
    (w.write nodes).1.sql = beside ' ' w.sql
      (weave (fun k => w.dialect.placeholder (w.placeholders + k)) 0 (w.texts nodes)) := by
  rw [← weave_shift, Nat.add_zero, Writer.texts, ← fill_eq_weave]
  rfl

/-- Counted on or not, there is something to write or there is not. -/
theorem Writer.anew_sql_eq_nil_iff (w : Writer) (nodes : List Node) :
    (w.anew.write nodes).1.sql = [] ↔
      weave (fun k => w.dialect.placeholder (w.placeholders + k)) 0 (w.texts nodes) = [] := by
  have blank : (w.anew.write nodes).1.sql = [] ↔ layOut (emit w.limit nodes).written = [] :=
    fill_eq_nil_iff
  rw [blank, ← weave_shift, Nat.add_zero, Writer.texts, ← fill_eq_weave, fill_eq_nil_iff]

/-- **A writer that holds a text goes on as a new one would begin.** -/
theorem resumes_of_ne_nil {w : Writer} (held : w.sql ≠ []) (nodes : List Node) :
    Resumes w nodes := by
  have behind : (w.anew.write nodes).1.sql ≠ [] → (w.write nodes).1.sql = w.sql ++ ' ' ::
      weave (fun k => w.dialect.placeholder (w.placeholders + k)) 0 (w.texts nodes) := by
    intro spoken
    rw [w.write_sql, beside_of_ne_nil ' ' held (mt (w.anew_sql_eq_nil_iff nodes).mpr spoken)]
  refine
    { dialect := rfl, limit := rfl, failure := rfl, placeholders := ?_, silent := ?_
      length := ?_, asked := ?_, counted := ?_ }
  · rw [w.anew_placeholders]
    rfl
  · intro silent
    rw [w.write_sql, (w.anew_sql_eq_nil_iff nodes).mp silent, beside_nil_right]
  · rw [w.anew_placeholders, Writer.texts, length_gaps]
  · intro spoken question
    rw [behind spoken, w.anew_sql, question]
    rfl
  · intro spoken postgres
    rw [behind spoken, w.anew_sql, postgres]
    exact ⟨rfl, rfl⟩

/-! ## The theorem -/

/-- **Writing and collecting accumulate.**  Lists can be taken in turn or all at once, with
the same outcome; behind what is there comes what a new writer would write, or a new
collector collect, also up to a fault, and what was there stays. -/
theorem writing_and_collecting_accumulate :
    (∀ (w : Writer) before after,
        w.write (before ++ after) = proceed (w.write before) (·.write after)) ∧
      (∀ (w : Writer) lists, w.write lists.flatten = eachInTurn Writer.write w lists) ∧
      (∀ (w : Writer) nodes, w.sql ≠ [] → Resumes w nodes) ∧
      (∀ (c : Collector) before after,
        c.collect (before ++ after) = proceed (c.collect before) (·.collect after)) ∧
      (∀ (c : Collector) lists, c.collect lists.flatten = eachInTurn Collector.collect c lists) ∧
      (∀ (c : Collector) nodes, c.collect nodes =
        (⟨c.limit, c.params ++ ((Collector.blank c.limit).collect nodes).1.params⟩,
          ((Collector.blank c.limit).collect nodes).2)) := by
  refine ⟨Writer.cumulative_write.append, ?_, fun w nodes held => resumes_of_ne_nil held nodes,
    Collector.cumulative_collect.append, ?_, fun _ _ => rfl⟩
  · exact fun w lists => (Writer.cumulative_write.eachInTurn_eq lists w).symm
  · exact fun c lists => (Collector.cumulative_collect.eachInTurn_eq lists c).symm

/-- A writer that has written up to the third placeholder. -/
def startedExample : Writer :=
  ⟨.postgres, 2, "a = $2 OR b = $3".toList, 3⟩

/-- Conditions that end in a list with items of two kinds, inside of a group. -/
def interruptedExample : List Node :=
  [(Node.ofPath ⟨none, "c"⟩ (.compare .lt) (.int 5)).joined .and,
    (Node.group [Node.ofPath ⟨none, "d"⟩ (.compare .eq) (.string "$1"),
      (Node.ofPath ⟨none, "e"⟩ (.member false) (.array [.int 1, .string "x"])).joined .and]).joined
        .or]

/-- A new writer counts from one; behind the text it is the fourth placeholder that comes
next, and both end inside of the group. -/
theorem writing_and_collecting_accumulate_search :
    startedExample.sql ≠ [] ∧
      startedExample.anew.write interruptedExample =
        (⟨.postgres, 2, "AND c < $1 OR ( d = $2 AND".toList, 2⟩,
          some (.mixedMembership "e" (some .plain) .string)) ∧
      startedExample.write interruptedExample =
        (⟨.postgres, 2, "a = $2 OR b = $3 AND c < $4 OR ( d = $5 AND".toList, 5⟩,
          some (.mixedMembership "e" (some .plain) .string)) := by
  have held : startedExample.sql ≠ [] := by decide
  have anew : startedExample.anew.write interruptedExample =
      (⟨.postgres, 2, "AND c < $1 OR ( d = $2 AND".toList, 2⟩,
        some (.mixedMembership "e" (some .plain) .string)) := rfl
  have resumes : Resumes startedExample interruptedExample :=
    writing_and_collecting_accumulate.2.2.1 _ _ held
  have spoken : (startedExample.anew.write interruptedExample).1.sql ≠ [] := by
    rw [anew]
    decide
  have text : (startedExample.write interruptedExample).1.sql =
      "a = $2 OR b = $3 AND c < $4 OR ( d = $5 AND".toList := (resumes.counted spoken rfl).2
  have count : (startedExample.write interruptedExample).1.placeholders = 5 := by
    rw [resumes.placeholders, anew]
    rfl
  have fault : (startedExample.write interruptedExample).2 =
      some (.mixedMembership "e" (some .plain) .string) := by
    rw [resumes.failure, anew]
  refine ⟨held, anew, Prod.ext ?_ fault⟩
  rw [← text, ← count]
  rfl

end Criteria
