/-
# Criteria.Proofs.Filtering -- what filtering does to a node

`FilterStep` lists all that can become of one node, with what was found out about it on
the way, and `filterNode_eq_iff` says that the list is right.  Facts about filtering go by
its cases and an induction over the forest; none of them unfolds `filterNode` again.
`Leaves` puts the steps of a walk without a fault together, and `filterAll_eq_iff` says
that there are no other such walks.

Two facts hold of every context: what is left is the forest thinned out, with only
values of comparisons changed (`filterAll_thinned`), and after a walk without a fault
nothing is left that says nothing (`Leaves.settled`).
-/
import Criteria.Filter
import Criteria.Proofs.Forest

namespace Criteria

set_option autoImplicit false

/-! ## Judging one node -/

namespace Context

variable {ctx : Context}

theorem locate_eq_ok_iff {key : Key} {field : String} {table : TableView} :
    ctx.locate key = .ok (field, table) ↔
      ∃ p, key = .path p ∧ p.field = field ∧ ctx.resolve p = .ok table := by
  cases key with
  | path p =>
      simp only [locate, Key.path.injEq, exists_eq_left']
      cases ctx.resolve p with
      | error f => simp [bind, Except.bind]
      | ok found => simp [bind, Except.bind, pure, Except.pure]
  | _ => simp [locate]

/-- A comparison stays with its coerced value when the field is declared, the value
constrains it, and coercion leaves something to compare with. -/
theorem judgeComparison_eq_some_iff {key : Key} {v w : Value} :
    ctx.judgeComparison key v = .ok (some w) ↔
      ∃ p table type, key = .path p ∧ ctx.resolve p = .ok table ∧
        table.redundant p.field v = false ∧ table.type? p.field = some type ∧
        w = ctx.coercion type v ∧ w.isNull = false := by
  cases located : ctx.locate key with
  | error f =>
      simp only [judgeComparison, located, bind, Except.bind, reduceCtorEq, false_iff]
      rintro ⟨p, table, type, rfl, resolved, -⟩
      simp [locate, resolved, bind, Except.bind, pure, Except.pure] at located
  | ok found =>
      obtain ⟨field, table⟩ := found
      obtain ⟨p, rfl, rfl, resolved⟩ := locate_eq_ok_iff.mp located
      simp only [judgeComparison, located, bind, Except.bind, Key.path.injEq]
      constructor
      · intro judged
        cases redundant : table.redundant p.field v with
        | true => simp [redundant, pure, Except.pure] at judged
        | false =>
            cases declared : table.type? p.field with
            | none =>
                simp [redundant, declared, throw, throwThe, MonadExceptOf.throw] at judged
            | some type =>
                simp only [redundant, declared, pure, Except.pure, Except.ok.injEq,
                  Bool.false_eq_true, if_false] at judged
                split at judged
                · cases judged
                · rename_i present
                  cases judged
                  exact ⟨p, table, type, rfl, resolved, redundant, declared, rfl,
                    Bool.eq_false_iff.mpr present⟩
      · rintro ⟨q, found, type, rfl, resolved', redundant, declared, rfl, present⟩
        obtain rfl : table = found := Except.ok.inj (resolved.symm.trans resolved')
        simp [redundant, declared, present, pure, Except.pure]

/-- A membership stays as it is when it has items, and a single item constrains a
field of a known table. -/
theorem judgeMembership_eq_some_iff {key : Key} {v w : Value} :
    ctx.judgeMembership key v = .ok (some w) ↔
      w = v ∧ v.members ≠ [] ∧
        ∀ item, v.members = [item] →
          ∃ p table, key = .path p ∧ ctx.resolve p = .ok table ∧
            table.redundant p.field item = false := by
  simp only [judgeMembership, members?]
  match h : v.members with
  | [] => simp [bind, Except.bind]
  | [item] =>
      simp only [bind, Except.bind, ne_eq, List.cons_ne_nil, not_false_eq_true, true_and,
        List.cons.injEq, and_true, forall_eq']
      cases located : ctx.locate key with
      | error f =>
          simp only [reduceCtorEq, false_iff]
          rintro ⟨rfl, p, table, rfl, resolved, -⟩
          simp [locate, resolved, bind, Except.bind, pure, Except.pure] at located
      | ok found =>
          obtain ⟨field, table⟩ := found
          obtain ⟨p, rfl, rfl, resolved⟩ := locate_eq_ok_iff.mp located
          simp only [pure, Except.pure, Except.ok.injEq, Key.path.injEq]
          constructor
          · intro judged
            cases redundant : table.redundant p.field item with
            | true => simp [redundant] at judged
            | false =>
                simp only [redundant, Bool.false_eq_true, if_false, Option.some.injEq] at judged
                exact ⟨judged.symm, p, table, rfl, resolved, redundant⟩
          · rintro ⟨rfl, q, found, rfl, resolved', redundant⟩
            obtain rfl : table = found := Except.ok.inj (resolved.symm.trans resolved')
            simp [redundant]
  | first :: second :: rest => simp [bind, Except.bind, pure, Except.pure, @eq_comm _ v w]

/-- What judging a node can find at fault: its key, the table or the field that the key
names, or that it has no items. -/
inductive Objection (ctx : Context) (key : Key) : Fault → Prop where
  | invalidKey : (∀ p, key ≠ .path p) → Objection ctx key (.invalidKey key.text)
  | unknownSchema {p : Path} :
      key = .path p → ctx.catalog (ctx.schemaName p) = none →
      Objection ctx key (.unknownSchema (ctx.schemaName p))
  | undeclaredField {p : Path} {table : TableView} :
      key = .path p → ctx.resolve p = .ok table → table.type? p.field = none →
      Objection ctx key (.undeclaredField table.name p.field)
  | emptyMembership : Objection ctx key (.emptyMembership key.text)

theorem objection_of_locate {key : Key} {f : Fault} (failed : ctx.locate key = .error f) :
    ctx.Objection key f := by
  cases key with
  | path p =>
      cases found : ctx.catalog (ctx.schemaName p) with
      | none =>
          simp only [locate, resolve, Catalog.resolve, found, bind, Except.bind,
            Except.error.injEq] at failed
          rw [← failed]
          exact .unknownSchema rfl found
      | some table =>
          simp [locate, resolve, Catalog.resolve, found, bind, Except.bind, pure, Except.pure]
            at failed
  | _ =>
      cases failed
      refine .invalidKey ?_
      intro p same
      cases same

theorem objection_of_judgeComparison {key : Key} {v : Value} {f : Fault}
    (failed : ctx.judgeComparison key v = .error f) : ctx.Objection key f := by
  simp only [judgeComparison, bind, Except.bind] at failed
  cases located : ctx.locate key with
  | error g =>
      rw [located] at failed
      cases failed
      exact objection_of_locate located
  | ok found =>
      obtain ⟨field, table⟩ := found
      obtain ⟨p, rfl, rfl, resolved⟩ := locate_eq_ok_iff.mp located
      simp only [located] at failed
      split at failed
      · cases failed
      · cases declared : table.type? p.field with
        | none =>
            simp only [declared] at failed
            cases failed
            exact .undeclaredField rfl resolved declared
        | some type =>
            simp only [declared] at failed
            cases failed

theorem objection_of_judgeMembership {key : Key} {v : Value} {f : Fault}
    (failed : ctx.judgeMembership key v = .error f) : ctx.Objection key f := by
  simp only [judgeMembership, members?, bind, Except.bind] at failed
  cases items : v.members with
  | nil =>
      simp only [items] at failed
      cases failed
      exact .emptyMembership
  | cons item others =>
      cases others with
      | nil =>
          simp only [items] at failed
          cases located : ctx.locate key with
          | error g =>
              rw [located] at failed
              cases failed
              exact objection_of_locate located
          | ok found =>
              rw [located] at failed
              cases failed
      | cons second rest =>
          simp only [items] at failed
          cases failed

/-- A node that cannot be judged has something wrong with its own key or value. -/
theorem objection_of_judge {key : Key} {predicate : Predicate} {v : Value} {f : Fault}
    (failed : ctx.judge key predicate v = .error f) : ctx.Objection key f := by
  cases predicate with
  | compare op => exact objection_of_judgeComparison failed
  | member negated => exact objection_of_judgeMembership failed
  | _ => cases failed

end Context

/-! ## One node -/

variable {ctx : Context}

/-- What filtering leaves below a node that stays.  Only a group is looked into when
nothing is below. -/
def filterBelow (ctx : Context) (depth : Nat) (predicate : Predicate) (children : List Node) :
    Filtered :=
  if predicate ≠ .group ∧ children.isEmpty then ⟨[], none⟩
  else if ctx.limit < depth + 1 then ⟨children, some (.nestingTooDeep ctx.limit)⟩
  else filterAll ctx (depth + 1) children

/-- Below a node filtering ends without a fault when it does so for the children; they
have to be within the limit, if there are any or have to be. -/
theorem filterBelow_eq_iff {depth : Nat} {predicate : Predicate} {children below : List Node} :
    filterBelow ctx depth predicate children = ⟨below, none⟩ ↔
      (predicate = .group ∨ children ≠ [] → depth + 1 ≤ ctx.limit) ∧
        filterAll ctx (depth + 1) children = ⟨below, none⟩ := by
  by_cases leaf : predicate ≠ .group ∧ children.isEmpty
  · obtain ⟨noGroup, empty⟩ := leaf
    rw [filterBelow, if_pos ⟨noGroup, empty⟩, List.isEmpty_iff.mp empty, filterAll]
    simp [noGroup]
  · have inner : predicate = .group ∨ children ≠ [] := by
      by_cases group : predicate = .group
      · exact .inl group
      · exact .inr fun empty => leaf ⟨group, List.isEmpty_iff.mpr empty⟩
    rw [filterBelow, if_neg leaf]
    by_cases beyond : ctx.limit < depth + 1
    · rw [if_pos beyond]
      constructor
      · rintro ⟨⟩
      · rintro ⟨within, _⟩
        exact absurd (within inner) (Nat.not_le.mpr beyond)
    · rw [if_neg beyond]
      exact ⟨fun found => ⟨fun _ => Nat.le_of_not_lt beyond, found⟩, And.right⟩

/-- All that can become of a node `depth` levels down. -/
inductive FilterStep (ctx : Context) (depth : Nat) (n : Node) : Verdict → Prop where
  /-- it cannot be judged -/
  | refused {f : Fault} :
      ctx.judge n.key n.predicate n.value = .error f → FilterStep ctx depth n (.failed n f)
  /-- it constrains nothing by itself -/
  | idle :
      ctx.judge n.key n.predicate n.value = .ok none → FilterStep ctx depth n .dropped
  /-- a fault below it -/
  | stuck {v : Value} {below : List Node} {f : Fault} :
      ctx.judge n.key n.predicate n.value = .ok (some v) →
      filterBelow ctx depth n.predicate n.children = ⟨below, some f⟩ →
      FilterStep ctx depth n (.failed { n with value := v, children := below } f)
  /-- a group of which nothing is left -/
  | emptied {v : Value} :
      ctx.judge n.key n.predicate n.value = .ok (some v) →
      filterBelow ctx depth n.predicate n.children = ⟨[], none⟩ →
      n.predicate = .group → FilterStep ctx depth n .dropped
  | kept {v : Value} {below : List Node} :
      ctx.judge n.key n.predicate n.value = .ok (some v) →
      filterBelow ctx depth n.predicate n.children = ⟨below, none⟩ →
      (n.predicate = .group → below ≠ []) →
      FilterStep ctx depth n (.kept { n with value := v, children := below })

theorem filterStep_filterNode (ctx : Context) (depth : Nat) (n : Node) :
    FilterStep ctx depth n (filterNode ctx depth n) := by
  obtain ⟨conjunction, key, predicate, v, children⟩ := n
  rw [filterNode, ← filterBelow]
  cases judged : ctx.judge key predicate v with
  | error f => exact .refused judged
  | ok judgement =>
      cases judgement with
      | none => exact .idle judged
      | some w =>
          cases inner : filterBelow ctx depth predicate children with
          | mk below failure =>
              simp only []
              cases failure with
              | some f => exact .stuck judged inner
              | none =>
                  simp only []
                  split
                  · rename_i empty
                    rw [List.isEmpty_iff.mp empty.2] at inner
                    exact .emptied judged inner empty.1
                  · rename_i some_
                    exact .kept judged inner fun group nothing =>
                      some_ ⟨group, by rw [nothing]; rfl⟩

/-- The steps tell exactly what `filterNode` does. -/
theorem filterNode_eq_iff {depth : Nat} {n : Node} {verdict : Verdict} :
    filterNode ctx depth n = verdict ↔ FilterStep ctx depth n verdict := by
  constructor
  · rintro rfl
    exact filterStep_filterNode ctx depth n
  · intro step
    obtain ⟨conjunction, key, predicate, v, children⟩ := n
    cases step with
    | refused judged => simp only [filterNode, judged]
    | idle judged => simp only [filterNode, judged]
    | stuck judged inner =>
        simp only [filterBelow] at inner
        simp only [filterNode, judged, inner]
    | emptied judged inner group =>
        simp only [filterBelow] at inner
        simp only [filterNode, judged, inner]
        exact if_pos ⟨group, rfl⟩
    | kept judged inner some_ =>
        simp only [filterBelow] at inner
        simp only [filterNode, judged, inner]
        rw [if_neg]
        rintro ⟨group, nothing⟩
        exact some_ group (List.isEmpty_iff.mp nothing)

/-! ## A walk without a fault -/

/-- `left` is what a walk over `nodes`, `depth` levels down, leaves without a fault. -/
inductive Leaves (ctx : Context) : Nat → List Node → List Node → Prop where
  | nil {depth : Nat} : Leaves ctx depth [] []
  /-- a node that constrains nothing by itself -/
  | idle {depth : Nat} {n : Node} {rest left : List Node} :
      ctx.judge n.key n.predicate n.value = .ok none →
      Leaves ctx depth rest left → Leaves ctx depth (n :: rest) left
  /-- a group of which nothing is left -/
  | emptied {depth : Nat} {n : Node} {rest left : List Node} :
      n.predicate = .group → depth + 1 ≤ ctx.limit → Leaves ctx (depth + 1) n.children [] →
      Leaves ctx depth rest left → Leaves ctx depth (n :: rest) left
  | kept {depth : Nat} {n : Node} {v : Value} {below rest left : List Node} :
      ctx.judge n.key n.predicate n.value = .ok (some v) →
      (n.predicate = .group ∨ n.children ≠ [] → depth + 1 ≤ ctx.limit) →
      (n.predicate = .group → below ≠ []) →
      Leaves ctx (depth + 1) n.children below → Leaves ctx depth rest left →
      Leaves ctx depth (n :: rest) ({ n with value := v, children := below } :: left)

theorem leaves_of_filterAll (nodes : List Node) :
    ∀ depth left, filterAll ctx depth nodes = ⟨left, none⟩ → Leaves ctx depth nodes left := by
  induction nodes using forest_induction with
  | nil =>
      intro depth left found
      rw [filterAll] at found
      cases found
      exact .nil
  | cons n rest inner after =>
      intro depth left found
      have step := filterStep_filterNode ctx depth n
      rw [filterAll] at found
      generalize filterNode ctx depth n = verdict at step found
      cases step with
      | refused => cases found
      | idle judged => exact .idle judged (after depth left found)
      | stuck => cases found
      | emptied _ below group =>
          obtain ⟨within, below⟩ := filterBelow_eq_iff.mp below
          exact .emptied group (within (.inl group)) (inner _ _ below) (after depth left found)
      | kept judged below some_ =>
          obtain ⟨within, below⟩ := filterBelow_eq_iff.mp below
          cases others : filterAll ctx depth rest with
          | mk more failure =>
              simp only [others, Filtered.mk.injEq] at found
              obtain ⟨rfl, rfl⟩ := found
              exact .kept judged within some_ (inner _ _ below) (after depth more others)

theorem filterAll_of_leaves {depth : Nat} {nodes left : List Node}
    (leaves : Leaves ctx depth nodes left) : filterAll ctx depth nodes = ⟨left, none⟩ := by
  induction leaves with
  | nil => rw [filterAll]
  | @idle depth n rest left judged _ after =>
      have step : filterNode ctx depth n = .dropped := filterNode_eq_iff.mpr (.idle judged)
      rw [filterAll, step]
      exact after
  | @emptied depth n rest left group within _ _ inner after =>
      have judged : ctx.judge n.key n.predicate n.value = .ok (some n.value) := by
        rw [group]
        rfl
      have step : filterNode ctx depth n = .dropped := filterNode_eq_iff.mpr
        (.emptied judged (filterBelow_eq_iff.mpr ⟨fun _ => within, inner⟩) group)
      rw [filterAll, step]
      exact after
  | @kept depth n v below rest left judged within some_ _ _ inner after =>
      have step := filterNode_eq_iff.mpr
        (.kept judged (filterBelow_eq_iff.mpr ⟨within, inner⟩) some_)
      rw [filterAll, step]
      simp only [after]

/-- **`Leaves` is filtering without a fault.** -/
theorem filterAll_eq_iff {depth : Nat} {nodes left : List Node} :
    filterAll ctx depth nodes = ⟨left, none⟩ ↔ Leaves ctx depth nodes left :=
  ⟨leaves_of_filterAll nodes depth left, filterAll_of_leaves⟩

theorem leaves_of_whole {depth : Nat} {nodes : List Node}
    (whole : (filterAll ctx depth nodes).failure = none) :
    Leaves ctx depth nodes (filterAll ctx depth nodes).nodes := by
  refine leaves_of_filterAll nodes depth _ ?_
  rw [← whole]

/-! ## What is left is thinned out -/

/-- A value with which filtering may leave a node: its own or, of a comparison, what
coercion makes of it. -/
inductive Context.Restates (ctx : Context) (n : Node) : Value → Prop where
  | same : Restates ctx n n.value
  | coerced {op : Comparison} {p : Path} {table : TableView} {type : ColumnType} :
      n.predicate = .compare op → n.key = .path p → ctx.resolve p = .ok table →
      table.type? p.field = some type → Restates ctx n (ctx.coercion type n.value)

/-- `left` is `nodes` without some of them, here and below, and with some comparisons
restated. -/
inductive Thinned (ctx : Context) : List Node → List Node → Prop where
  | nil : Thinned ctx [] []
  | drop {n : Node} {rest left : List Node} :
      Thinned ctx rest left → Thinned ctx (n :: rest) left
  | keep {n : Node} {v : Value} {below rest left : List Node} :
      ctx.Restates n v → Thinned ctx n.children below → Thinned ctx rest left →
      Thinned ctx (n :: rest) ({ n with value := v, children := below } :: left)

theorem Thinned.refl (ctx : Context) (nodes : List Node) : Thinned ctx nodes nodes := by
  induction nodes using forest_induction with
  | nil => exact .nil
  | cons n rest inner after =>
      obtain ⟨conjunction, key, predicate, v, children⟩ := n
      exact .keep .same inner after

theorem Context.restates_of_judge {n : Node} {v : Value}
    (judged : ctx.judge n.key n.predicate n.value = .ok (some v)) : ctx.Restates n v := by
  cases predicate : n.predicate with
  | compare op =>
      rw [predicate, Context.judge] at judged
      obtain ⟨p, table, type, key, resolved, _, declared, rfl, _⟩ :=
        Context.judgeComparison_eq_some_iff.mp judged
      exact .coerced predicate key resolved declared
  | member negated =>
      rw [predicate, Context.judge] at judged
      rw [(Context.judgeMembership_eq_some_iff.mp judged).1]
      exact .same
  | _ =>
      rw [predicate] at judged
      cases judged
      exact .same

/-- **Filtering thins a forest out.**  Also when a fault ends it, nothing is added or
moved, and no conjunction, key or predicate changes. -/
theorem filterAll_thinned (ctx : Context) (nodes : List Node) :
    ∀ depth, Thinned ctx nodes (filterAll ctx depth nodes).nodes := by
  induction nodes using forest_induction with
  | nil =>
      intro depth
      rw [filterAll]
      exact .nil
  | cons n rest inner after =>
      intro depth
      have below : Thinned ctx n.children (filterBelow ctx depth n.predicate n.children).nodes := by
        rw [filterBelow]
        split
        · rename_i leaf
          rw [List.isEmpty_iff.mp leaf.2]
          exact .nil
        · split
          · exact .refl ctx n.children
          · exact inner (depth + 1)
      have step := filterStep_filterNode ctx depth n
      rw [filterAll]
      generalize filterNode ctx depth n = verdict at step
      cases step with
      | refused => exact .refl ctx (n :: rest)
      | idle => exact .drop (after depth)
      | stuck judged inner =>
          rw [inner] at below
          exact .keep (Context.restates_of_judge judged) below (.refl ctx rest)
      | emptied => exact .drop (after depth)
      | kept judged inner =>
          rw [inner] at below
          exact .keep (Context.restates_of_judge judged) below (after depth)

/-! ## Nothing is left that says nothing -/

/-- A node says something by itself when, by its predicate, it has a value, items or
children. -/
def Node.Says (n : Node) : Prop :=
  match n.predicate with
  | .compare _ => n.value.isNull = false
  | .member _ => n.value.members ≠ []
  | .group => n.children ≠ []
  | _ => True

/-- Every node, here and below, says something. -/
inductive Settled : List Node → Prop where
  | nil : Settled []
  | cons {n : Node} {rest : List Node} :
      n.Says → Settled n.children → Settled rest → Settled (n :: rest)

theorem Settled.cases {n : Node} {rest : List Node} (settled : Settled (n :: rest)) :
    n.Says ∧ Settled n.children ∧ Settled rest := by
  cases settled with
  | cons speaks below behind => exact ⟨speaks, below, behind⟩

theorem Settled.joined {n : Node} {rest : List Node} (settled : Settled (n :: rest))
    (conjunction : Conjunction) : Settled (n.joined conjunction :: rest) := by
  cases settled with
  | cons speaks below others => exact .cons speaks below others

theorem says_of_judge {n : Node} {v : Value} {below : List Node}
    (judged : ctx.judge n.key n.predicate n.value = .ok (some v))
    (some_ : n.predicate = .group → below ≠ []) :
    Node.Says { n with value := v, children := below } := by
  cases predicate : n.predicate with
  | compare op =>
      rw [predicate, Context.judge] at judged
      obtain ⟨_, _, _, _, _, _, _, _, present⟩ := Context.judgeComparison_eq_some_iff.mp judged
      simpa only [Node.Says, predicate] using present
  | member negated =>
      rw [predicate, Context.judge] at judged
      obtain ⟨rfl, items, _⟩ := Context.judgeMembership_eq_some_iff.mp judged
      simpa only [Node.Says, predicate] using items
  | group => simpa only [Node.Says, predicate] using some_ predicate
  | _ => simp only [Node.Says]

/-- **After filtering every node says something**, whatever the context. -/
theorem Leaves.settled {depth : Nat} {nodes left : List Node}
    (leaves : Leaves ctx depth nodes left) : Settled left := by
  induction leaves with
  | nil => exact .nil
  | idle _ _ after => exact after
  | emptied _ _ _ _ _ after => exact after
  | kept judged _ some_ _ _ inner after => exact .cons (says_of_judge judged some_) inner after

end Criteria
