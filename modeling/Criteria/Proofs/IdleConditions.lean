/-
# Criteria.Proofs.IdleConditions -- a condition that is dropped leaves no trace

A condition that filtering drops may be put in anywhere: at the head of a list, where the
joiner of the next condition is then no longer the first, in a group that has no children,
or before the node at which the filtering ends with a fault.  The walk passes it and goes
on as without it, so two filterings end alike (`Filtered.Alike`): with the same fault, or
with the same forest.  What a compilation makes of the forest is then the same as well
(`compile_of_inserted`).

`Idle` tells which conditions these are (`filterNode_eq_dropped_iff`), and `Inserted` where
they may stand: in the list or among the children of a group below groups.
-/
import Criteria.Compile
import Criteria.Proofs.NormalForm

namespace Criteria

set_option autoImplicit false

variable {ctx : Context}

/-! ## Conditions that are dropped -/

namespace Context

/-- A comparison is dropped when its value constrains nothing, or nothing once it is made
to fit the column. -/
theorem judgeComparison_eq_none_iff {key : Key} {v : Value} :
    ctx.judgeComparison key v = .ok none ↔
      ∃ p table, key = .path p ∧ ctx.resolve p = .ok table ∧
        (table.redundant p.field v = true ∨
          ∃ type, table.type? p.field = some type ∧ (ctx.coercion type v).isNull = true) := by
  cases located : ctx.locate key with
  | error f =>
      simp only [judgeComparison, located, bind, Except.bind, reduceCtorEq, false_iff]
      rintro ⟨p, table, rfl, resolved, -⟩
      have known := locate_eq_ok_iff.mpr ⟨p, rfl, rfl, resolved⟩
      cases located.symm.trans known
  | ok found =>
      obtain ⟨field, table⟩ := found
      obtain ⟨p, rfl, rfl, resolved⟩ := locate_eq_ok_iff.mp located
      have only : ∀ {q other}, Key.path p = Key.path q → ctx.resolve q = .ok other →
          p = q ∧ table = other := by
        intro q other same resolved'
        cases same
        exact ⟨rfl, Except.ok.inj (resolved.symm.trans resolved')⟩
      simp only [judgeComparison, located, bind, Except.bind]
      cases redundant : table.redundant p.field v with
      | true =>
          simp only [if_true, pure, Except.pure, true_iff]
          exact ⟨p, table, rfl, resolved, .inl redundant⟩
      | false =>
          simp only [Bool.false_eq_true, if_false]
          cases declared : table.type? p.field with
          | none =>
              simp only [throw, throwThe, MonadExceptOf.throw, reduceCtorEq, false_iff]
              rintro ⟨q, other, same, resolved', fits⟩
              obtain ⟨rfl, rfl⟩ := only same resolved'
              simp [redundant, declared] at fits
          | some type =>
              simp only [pure, Except.pure, Except.ok.injEq]
              cases null : (ctx.coercion type v).isNull with
              | true =>
                  simp only [if_true, true_iff]
                  exact ⟨p, table, rfl, resolved, .inr ⟨type, declared, null⟩⟩
              | false =>
                  simp only [Bool.false_eq_true, if_false, reduceCtorEq, false_iff]
                  rintro ⟨q, other, same, resolved', fits⟩
                  obtain ⟨rfl, rfl⟩ := only same resolved'
                  simp [redundant, declared, null] at fits

/-- A membership is dropped when it has a single item and that constrains nothing. -/
theorem judgeMembership_eq_none_iff {key : Key} {v : Value} :
    ctx.judgeMembership key v = .ok none ↔
      ∃ item p table, v.members = [item] ∧ key = .path p ∧ ctx.resolve p = .ok table ∧
        table.redundant p.field item = true := by
  simp only [judgeMembership, members?]
  cases items : v.members with
  | nil => simp [bind, Except.bind]
  | cons item others =>
      cases others with
      | cons second others => simp [bind, Except.bind, pure, Except.pure]
      | nil =>
          simp only [bind, Except.bind, List.cons.injEq, and_true]
          cases located : ctx.locate key with
          | error f =>
              simp only [reduceCtorEq, false_iff]
              rintro ⟨_, p, table, -, rfl, resolved, -⟩
              have known := locate_eq_ok_iff.mpr ⟨p, rfl, rfl, resolved⟩
              cases located.symm.trans known
          | ok found =>
              obtain ⟨field, table⟩ := found
              obtain ⟨p, rfl, rfl, resolved⟩ := locate_eq_ok_iff.mp located
              simp only [pure, Except.pure, Except.ok.injEq]
              constructor
              · intro judged
                cases redundant : table.redundant p.field item with
                | true => exact ⟨item, p, table, rfl, rfl, resolved, redundant⟩
                | false => simp [redundant] at judged
              · rintro ⟨_, q, other, rfl, same, resolved', redundant⟩
                cases same
                obtain rfl : table = other := Except.ok.inj (resolved.symm.trans resolved')
                rw [redundant]
                rfl

end Context

/-- The conditions that filtering drops `depth` levels down. -/
inductive Idle (ctx : Context) : Nat → Node → Prop where
  /-- a comparison with a value that constrains nothing -/
  | redundant {depth : Nat} {n : Node} {op : Comparison} {p : Path} {table : TableView} :
      n.predicate = .compare op → n.key = .path p → ctx.resolve p = .ok table →
      table.redundant p.field n.value = true → Idle ctx depth n
  /-- a comparison with a value of which coercion leaves nothing -/
  | unfit {depth : Nat} {n : Node} {op : Comparison} {p : Path} {table : TableView}
      {type : ColumnType} :
      n.predicate = .compare op → n.key = .path p → ctx.resolve p = .ok table →
      table.type? p.field = some type → (ctx.coercion type n.value).isNull = true →
      Idle ctx depth n
  /-- a membership of one item that constrains nothing -/
  | single {depth : Nat} {n : Node} {negated : Bool} {item : Value} {p : Path}
      {table : TableView} :
      n.predicate = .member negated → n.value.members = [item] → n.key = .path p →
      ctx.resolve p = .ok table → table.redundant p.field item = true → Idle ctx depth n
  /-- a group of such conditions, or of none -/
  | group {depth : Nat} {n : Node} :
      n.predicate = .group → depth + 1 ≤ ctx.limit → (∀ m ∈ n.children, Idle ctx (depth + 1) m) →
      Idle ctx depth n

/-- Judging by itself drops the comparisons and memberships among them. -/
theorem idle_of_judge {depth : Nat} {n : Node}
    (judged : ctx.judge n.key n.predicate n.value = .ok none) : Idle ctx depth n := by
  cases predicate : n.predicate with
  | compare op =>
      rw [predicate, Context.judge] at judged
      obtain ⟨p, table, key, resolved, fits⟩ := Context.judgeComparison_eq_none_iff.mp judged
      rcases fits with redundant | ⟨type, declared, null⟩
      · exact .redundant predicate key resolved redundant
      · exact .unfit predicate key resolved declared null
  | member negated =>
      rw [predicate, Context.judge] at judged
      obtain ⟨item, p, table, items, key, resolved, redundant⟩ :=
        Context.judgeMembership_eq_none_iff.mp judged
      exact .single predicate items key resolved redundant
  | _ =>
      rw [predicate] at judged
      cases judged

/-- Nothing is left of a list when each of its nodes is dropped. -/
theorem filterAll_eq_nil_iff {depth : Nat} {nodes : List Node} :
    filterAll ctx depth nodes = ⟨[], none⟩ ↔ ∀ n ∈ nodes, filterNode ctx depth n = .dropped := by
  induction nodes with
  | nil =>
      rw [filterAll]
      simp
  | cons n rest ih =>
      rw [filterAll, List.forall_mem_cons, ← ih]
      cases filterNode ctx depth n <;> simp

/-- An idle condition is dropped, a group of them when all of its children are. -/
theorem filterNode_of_idle {depth : Nat} {n : Node} (idle : Idle ctx depth n)
    (below : (∀ m ∈ n.children, Idle ctx (depth + 1) m) →
      filterAll ctx (depth + 1) n.children = ⟨[], none⟩) :
    filterNode ctx depth n = .dropped := by
  cases idle with
  | redundant predicate key resolved redundant =>
      apply filterNode_eq_iff.mpr
      apply FilterStep.idle
      rw [predicate, Context.judge]
      exact Context.judgeComparison_eq_none_iff.mpr ⟨_, _, key, resolved, .inl redundant⟩
  | unfit predicate key resolved declared null =>
      apply filterNode_eq_iff.mpr
      apply FilterStep.idle
      rw [predicate, Context.judge]
      exact Context.judgeComparison_eq_none_iff.mpr
        ⟨_, _, key, resolved, .inr ⟨_, declared, null⟩⟩
  | single predicate items key resolved redundant =>
      apply filterNode_eq_iff.mpr
      apply FilterStep.idle
      rw [predicate, Context.judge]
      exact Context.judgeMembership_eq_none_iff.mpr ⟨_, _, _, items, key, resolved, redundant⟩
  | group group within children =>
      have judged : ctx.judge n.key n.predicate n.value = .ok (some n.value) := by
        rw [group]
        rfl
      have found : filterBelow ctx depth n.predicate n.children = ⟨[], none⟩ :=
        filterBelow_eq_iff.mpr ⟨fun _ => within, below children⟩
      exact filterNode_eq_iff.mpr (.emptied judged found group)

theorem forall_dropped_iff_idle (nodes : List Node) :
    ∀ depth, ∀ n ∈ nodes, (filterNode ctx depth n = .dropped ↔ Idle ctx depth n) := by
  induction nodes using forest_induction with
  | nil => exact fun _ _ member => nomatch member
  | cons first rest inner after =>
      intro depth
      refine List.forall_mem_cons.mpr ⟨?_, after depth⟩
      have below : filterAll ctx (depth + 1) first.children = ⟨[], none⟩ ↔
          ∀ m ∈ first.children, Idle ctx (depth + 1) m := by
        rw [filterAll_eq_nil_iff]
        exact forall₂_congr (inner (depth + 1))
      constructor
      · intro dropped
        cases filterNode_eq_iff.mp dropped with
        | idle judged => exact idle_of_judge judged
        | emptied _ found group =>
            obtain ⟨within, nothing⟩ := filterBelow_eq_iff.mp found
            exact .group group (within (.inl group)) (below.mp nothing)
      · intro idle
        exact filterNode_of_idle idle below.mpr

/-- **Exactly the idle conditions are dropped.** -/
theorem filterNode_eq_dropped_iff {depth : Nat} {n : Node} :
    filterNode ctx depth n = .dropped ↔ Idle ctx depth n :=
  forall_dropped_iff_idle [n] depth n List.mem_cons_self

/-! ## Walks that end alike -/

/-- The two walks ended with the same fault, or without one and with the same forest
left. -/
structure Filtered.Alike (a b : Filtered) : Prop where
  failure : a.failure = b.failure
  nodes : a.failure = none → a.nodes = b.nodes

theorem Filtered.Alike.refl (a : Filtered) : a.Alike a :=
  ⟨rfl, fun _ => rfl⟩

theorem Filtered.Alike.of_fault {a b : Filtered} {f : Fault} (ended : a.failure = some f)
    (ended' : b.failure = some f) : a.Alike b where
  failure := ended.trans ended'.symm
  nodes := by
    intro whole
    rw [ended] at whole
    cases whole

/-- What stands before makes no difference to it. -/
theorem alike_append {depth : Nat} {rest others : List Node} (before : List Node)
    (alike : (filterAll ctx depth rest).Alike (filterAll ctx depth others)) :
    (filterAll ctx depth (before ++ rest)).Alike (filterAll ctx depth (before ++ others)) := by
  induction before with
  | nil => exact alike
  | cons n before ih =>
      rw [List.cons_append, List.cons_append, filterAll, filterAll]
      cases filterNode ctx depth n with
      | dropped => exact ih
      | kept m => exact ⟨ih.failure, fun whole => congrArg (m :: ·) (ih.nodes whole)⟩
      | failed m f => exact .of_fault rfl rfl

/-- Nor does a node that is dropped. -/
theorem alike_of_dropped {depth : Nat} {b : Node} (dropped : filterNode ctx depth b = .dropped)
    (rest : List Node) : (filterAll ctx depth rest).Alike (filterAll ctx depth (b :: rest)) := by
  have passed : filterAll ctx depth (b :: rest) = filterAll ctx depth rest := by
    rw [filterAll, dropped]
  rw [passed]
  exact .refl _

/-- A group is judged by what is left below it. -/
theorem filterNode_of_group {depth : Nat} {g : Node} (group : g.predicate = .group) :
    filterNode ctx depth g =
      match filterBelow ctx depth .group g.children with
      | ⟨below, some f⟩ => .failed { g with children := below } f
      | ⟨below, none⟩ => if below.isEmpty then .dropped else .kept { g with children := below } := by
  have judged : ctx.judge g.key g.predicate g.value = .ok (some g.value) := by
    rw [group]
    rfl
  cases found : filterBelow ctx depth .group g.children with
  | mk below failure =>
      rw [← group] at found
      cases failure with
      | some f => exact filterNode_eq_iff.mpr (.stuck judged found)
      | none =>
          cases below with
          | nil => exact filterNode_eq_iff.mpr (.emptied judged found group)
          | cons n rest =>
              exact filterNode_eq_iff.mpr (.kept judged found fun _ => List.cons_ne_nil n rest)

/-- Groups end a walk alike when their children do. -/
theorem alike_of_children {depth : Nat} {g : Node} {children : List Node}
    (group : g.predicate = .group)
    (alike : (filterAll ctx (depth + 1) g.children).Alike (filterAll ctx (depth + 1) children))
    (rest : List Node) :
    (filterAll ctx depth (g :: rest)).Alike
      (filterAll ctx depth ({ g with children } :: rest)) := by
  have below : (filterBelow ctx depth .group g.children).Alike
      (filterBelow ctx depth .group children) := by
    have looked : ∀ nodes, filterBelow ctx depth .group nodes =
        if ctx.limit < depth + 1 then ⟨nodes, some (.nestingTooDeep ctx.limit)⟩
        else filterAll ctx (depth + 1) nodes := fun nodes => if_neg fun plain => plain.1 rfl
    rw [looked, looked]
    by_cases beyond : ctx.limit < depth + 1
    · rw [if_pos beyond, if_pos beyond]
      exact .of_fault rfl rfl
    · rw [if_neg beyond, if_neg beyond]
      exact alike
  have group' : ({ g with children } : Node).predicate = .group := group
  rw [filterAll, filterAll, filterNode_of_group group, filterNode_of_group group']
  obtain ⟨failure, nodes⟩ := below
  cases found : filterBelow ctx depth .group g.children with
  | mk left ended =>
      cases found' : filterBelow ctx depth .group children with
      | mk left' ended' =>
          rw [found, found'] at failure nodes
          obtain rfl : ended = ended' := failure
          cases ended with
          | some f => exact .of_fault rfl rfl
          | none =>
              obtain rfl : left = left' := nodes rfl
              exact .refl _

/-! ## Putting a condition in -/

/-- `more` is `nodes` with `b` put in: somewhere in the list or, `depth` levels down, among
the children of a group that stands below groups only. -/
inductive Inserted (b : Node) : Nat → List Node → List Node → Prop where
  | here {before after : List Node} : Inserted b 0 (before ++ after) (before ++ b :: after)
  | inside {depth : Nat} {before after children : List Node} {g : Node} :
      g.predicate = .group → Inserted b depth g.children children →
      Inserted b (depth + 1) (before ++ g :: after) (before ++ { g with children } :: after)

/-- A walk over a forest ends alike with a condition put in that it drops. -/
theorem alike_of_inserted {b : Node} {depth : Nat} {nodes more : List Node}
    (inserted : Inserted b depth nodes more) :
    ∀ level, filterNode ctx (level + depth) b = .dropped →
      (filterAll ctx level nodes).Alike (filterAll ctx level more) := by
  induction inserted with
  | @here before after =>
      intro level dropped
      exact alike_append before (alike_of_dropped dropped after)
  | @inside depth before after children g group _ inner =>
      intro level dropped
      have deeper : level + 1 + depth = level + (depth + 1) := by omega
      apply alike_append before
      apply alike_of_children group
      exact inner (level + 1) (by rw [deeper]; exact dropped)

/-- **A condition that is dropped leaves no trace.**  Wherever it is put in, a compilation
fails with the same fault, or succeeds with the same text, values and placeholders and
leaves the same forest. -/
theorem compile_of_inserted (ctx : Context) (dialect : Dialect) {b : Node} {depth : Nat}
    {nodes more : List Node} (inserted : Inserted b depth nodes more)
    (dropped : filterNode ctx depth b = .dropped) :
    (compile ctx dialect more).2 = (compile ctx dialect nodes).2 ∧
      ∀ left c, compile ctx dialect nodes = (left, .ok c) →
        compile ctx dialect more = (left, .ok c) := by
  have alike : (filter ctx nodes).Alike (filter ctx more) :=
    alike_of_inserted inserted 0 (by rw [Nat.zero_add]; exact dropped)
  cases ended : (filter ctx nodes).failure with
  | some f =>
      have failed : (filter ctx more).failure = some f := by rw [← alike.failure, ended]
      rw [compile_of_fault dialect ended, compile_of_fault dialect failed]
      exact ⟨rfl, nofun⟩
  | none =>
      have whole : (filter ctx more).failure = none := by rw [← alike.failure, ended]
      have same : compile ctx dialect more = compile ctx dialect nodes := by
        rw [compile_of_whole dialect ended, compile_of_whole dialect whole, alike.nodes ended]
      rw [same]
      exact ⟨rfl, fun _ _ => id⟩

/-- A group of the zero of an identity and of a date that cannot be read. -/
def idleExample : Node :=
  (Node.group [.ofPath ⟨none, "id"⟩ (.compare .eq) (.int 0),
    (Node.ofPath ⟨none, "born"⟩ (.compare .lt) (.string "soon")).joined .or]).joined .or

/-- A group with some conditions before one with a joiner of its own. -/
def groupExample (front : List Node) (key : String) : List Node :=
  [.group (front ++ [(Node.ofPath ⟨none, key⟩ (.compare .ne) (.int 7)).joined .and])]

/-- At the head of a group the idle condition goes, and takes the joiner behind it along; a
field that is not declared is at fault with it and without it. -/
theorem compile_of_inserted_users :
    (∀ key, Inserted idleExample 1 (groupExample [] key) (groupExample [idleExample] key)) ∧
      filterNode (userSchema.context "users" [] 2) 1 idleExample = .dropped ∧
      compile (userSchema.context "users" [] 2) .postgres (groupExample [idleExample] "id") =
        (groupExample [] "id", .ok ⟨"( id <> $1 )", [.int 7], 1⟩) ∧
      (compile (userSchema.context "users" [] 2) .postgres
        (groupExample [idleExample] "ghost")).2 = .error (.undeclaredField "users" "ghost") := by
  have inserted : ∀ key, Inserted idleExample 1 (groupExample [] key)
      (groupExample [idleExample] key) :=
    fun key => @Inserted.inside _ 0 [] [] _ (Node.group _) rfl (@Inserted.here _ [] _)
  have dropped : filterNode (userSchema.context "users" [] 2) 1 idleExample = .dropped := rfl
  refine ⟨inserted, dropped, ?_, ?_⟩
  · exact (compile_of_inserted _ .postgres (inserted "id") dropped).2 _ _ rfl
  · exact (compile_of_inserted _ .postgres (inserted "ghost") dropped).1.trans rfl

end Criteria
