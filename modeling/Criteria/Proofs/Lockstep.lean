/-
# Criteria.Proofs.Lockstep -- two forests filtered in step

Two forests of one shape have nodes that correspond (`Paired`).  When judging finds the same
of nodes that correspond, whatever they differ in (`Context.JudgedAlike`), a walk over the one
forest goes in step with a walk over the other: the same nodes are dropped, those that stay
correspond again, and both walks end with a fault at the same place or with none
(`filterAll_inStep`).

What correspondence means is left open, and so is what may differ between two faults.
-/
import Criteria.Proofs.Filtering

namespace Criteria

set_option autoImplicit false

variable {ctx : Context} {R : Node → Node → Prop} {F : Fault → Fault → Prop}

/-! ## Forests of one shape -/

/-- Forests of one shape, with nodes that correspond at each place. -/
inductive Paired (R : Node → Node → Prop) : List Node → List Node → Prop where
  | nil : Paired R [] []
  | cons {n m : Node} {rest others : List Node} :
      R n m → Paired R n.children m.children → Paired R rest others →
      Paired R (n :: rest) (m :: others)

theorem Paired.isEmpty {nodes others : List Node} (paired : Paired R nodes others) :
    nodes.isEmpty = others.isEmpty := by
  cases paired <;> rfl

/-! ## Nodes that are judged alike -/

/-- Judging finds the same of both nodes: faults that correspond, nothing to keep, or values
with which the nodes correspond, whatever is left below them. -/
inductive Context.JudgedAlike (ctx : Context) (R : Node → Node → Prop) (F : Fault → Fault → Prop)
    (n m : Node) : Prop where
  | refused {f g : Fault} :
      ctx.judge n.key n.predicate n.value = .error f →
      ctx.judge m.key m.predicate m.value = .error g → F f g → JudgedAlike ctx R F n m
  | idle :
      ctx.judge n.key n.predicate n.value = .ok none →
      ctx.judge m.key m.predicate m.value = .ok none → JudgedAlike ctx R F n m
  | stays {v w : Value} :
      ctx.judge n.key n.predicate n.value = .ok (some v) →
      ctx.judge m.key m.predicate m.value = .ok (some w) →
      (∀ below below', R { n with value := v, children := below }
        { m with value := w, children := below' }) → JudgedAlike ctx R F n m

/-- It is enough that judging the second finds what it finds of the first, with another value
perhaps to stay with. -/
theorem Context.JudgedAlike.of_map {n m : Node} (next : Value → Value)
    (judged : ctx.judge m.key m.predicate m.value =
      (ctx.judge n.key n.predicate n.value).map (Option.map next))
    (faults : ∀ f, F f f)
    (again : ∀ v, ctx.judge n.key n.predicate n.value = .ok (some v) →
      ∀ below below', R { n with value := v, children := below }
        { m with value := next v, children := below' }) :
    ctx.JudgedAlike R F n m := by
  cases verdict : ctx.judge n.key n.predicate n.value with
  | error f =>
      rw [verdict] at judged
      exact .refused verdict judged (faults f)
  | ok judgement =>
      rw [verdict] at judged
      cases judgement with
      | none => exact .idle verdict judged
      | some v => exact .stays verdict judged (again v verdict)

theorem Context.JudgedAlike.of_eq {n m : Node}
    (judged : ctx.judge m.key m.predicate m.value = ctx.judge n.key n.predicate n.value)
    (faults : ∀ f, F f f)
    (again : ∀ v below below', R { n with value := v, children := below }
      { m with value := v, children := below' }) :
    ctx.JudgedAlike R F n m := by
  refine .of_map id ?_ faults fun v _ => again v
  rw [judged, Option.map_id, Except.map_id]
  rfl

/-- Filtering cannot tell nodes that correspond apart. -/
structure Context.Respects (ctx : Context) (R : Node → Node → Prop) (F : Fault → Fault → Prop) :
    Prop where
  predicate : ∀ n m, R n m → n.predicate = m.predicate
  judged : ∀ n m, R n m → ctx.JudgedAlike R F n m
  nesting : F (.nestingTooDeep ctx.limit) (.nestingTooDeep ctx.limit)

/-! ## Walks in step -/

/-- `left` and `left'` are what is left of two forests of one shape when the same nodes are
dropped from both.  The nodes that stay correspond; only comparisons may have changed, in
their values. -/
inductive InStep (ctx : Context) (R : Node → Node → Prop) :
    List Node → List Node → List Node → List Node → Prop where
  | nil : InStep ctx R [] [] [] []
  | drop {n m : Node} {rest others left left' : List Node} :
      InStep ctx R rest others left left' → InStep ctx R (n :: rest) (m :: others) left left'
  | keep {n m : Node} {v w : Value} {below below' rest others left left' : List Node} :
      ctx.Restates n v → ctx.Restates m w →
      R { n with value := v, children := below } { m with value := w, children := below' } →
      InStep ctx R n.children m.children below below' → InStep ctx R rest others left left' →
      InStep ctx R (n :: rest) (m :: others) ({ n with value := v, children := below } :: left)
        ({ m with value := w, children := below' } :: left')

namespace InStep

/-- Forests from which nothing is dropped. -/
theorem refl {nodes others : List Node} (paired : Paired R nodes others) :
    InStep ctx R nodes others nodes others := by
  induction paired with
  | nil => exact .nil
  | @cons n m rest others corresponds _ _ inner after =>
      obtain ⟨conjunction, key, predicate, v, children⟩ := n
      obtain ⟨conjunction', key', predicate', v', children'⟩ := m
      exact .keep .same .same corresponds inner after

/-- What is left of both has one shape again. -/
theorem paired {nodes others left left' : List Node}
    (inStep : InStep ctx R nodes others left left') : Paired R left left' := by
  induction inStep with
  | nil => exact .nil
  | drop _ after => exact after
  | keep _ _ corresponds _ _ inner after => exact .cons corresponds inner after

end InStep

/-- The same becomes of two nodes. -/
inductive Verdict.InStep (ctx : Context) (R : Node → Node → Prop) (F : Fault → Fault → Prop)
    (n m : Node) : Verdict → Verdict → Prop where
  | dropped : Verdict.InStep ctx R F n m .dropped .dropped
  | kept {v w : Value} {below below' : List Node} :
      ctx.Restates n v → ctx.Restates m w →
      R { n with value := v, children := below } { m with value := w, children := below' } →
      Criteria.InStep ctx R n.children m.children below below' →
      Verdict.InStep ctx R F n m (.kept { n with value := v, children := below })
        (.kept { m with value := w, children := below' })
  | failed {v w : Value} {below below' : List Node} {f g : Fault} :
      ctx.Restates n v → ctx.Restates m w →
      R { n with value := v, children := below } { m with value := w, children := below' } →
      Criteria.InStep ctx R n.children m.children below below' → F f g →
      Verdict.InStep ctx R F n m (.failed { n with value := v, children := below } f)
        (.failed { m with value := w, children := below' } g)

/-- Two walks went in step and ended with faults that correspond, or both without one. -/
structure Filtered.InStep (ctx : Context) (R : Node → Node → Prop) (F : Fault → Fault → Prop)
    (nodes others : List Node) (a b : Filtered) : Prop where
  nodes : Criteria.InStep ctx R nodes others a.nodes b.nodes
  failure : Option.Rel F a.failure b.failure

/-- Below nodes with the same predicate walks go in step when they do so over the
children. -/
theorem filterBelow_inStep {depth : Nat} {predicate predicate' : Predicate}
    {nodes others : List Node} (kind : predicate = predicate')
    (nesting : F (.nestingTooDeep ctx.limit) (.nestingTooDeep ctx.limit))
    (paired : Paired R nodes others)
    (inner : Filtered.InStep ctx R F nodes others (filterAll ctx (depth + 1) nodes)
      (filterAll ctx (depth + 1) others)) :
    Filtered.InStep ctx R F nodes others (filterBelow ctx depth predicate nodes)
      (filterBelow ctx depth predicate' others) := by
  unfold filterBelow
  rw [← kind, ← paired.isEmpty]
  split
  · rename_i leaf
    obtain rfl := List.isEmpty_iff.mp leaf.2
    cases paired
    exact ⟨.nil, .none⟩
  split
  · exact ⟨.refl paired, .some nesting⟩
  · exact inner

/-- Nodes that stay with their values become the same when the walks below them go in step. -/
theorem filterNode_inStep_of_judge {depth : Nat} {n m : Node} {v w : Value}
    (kind : n.predicate = m.predicate)
    (judged : ctx.judge n.key n.predicate n.value = .ok (some v))
    (judged' : ctx.judge m.key m.predicate m.value = .ok (some w))
    (again : ∀ below below', R { n with value := v, children := below }
      { m with value := w, children := below' })
    (found : Filtered.InStep ctx R F n.children m.children
      (filterBelow ctx depth n.predicate n.children)
      (filterBelow ctx depth m.predicate m.children)) :
    Verdict.InStep ctx R F n m (filterNode ctx depth n) (filterNode ctx depth m) := by
  have own : ctx.Restates n v := Context.restates_of_judge judged
  have own' : ctx.Restates m w := Context.restates_of_judge judged'
  obtain ⟨nodes, failure⟩ := found
  cases inside : filterBelow ctx depth n.predicate n.children with
  | mk left ended =>
      cases inside' : filterBelow ctx depth m.predicate m.children with
      | mk left' ended' =>
          rw [inside, inside'] at nodes failure
          cases failure with
          | some related =>
              rw [filterNode_eq_iff.mpr (.stuck judged inside),
                filterNode_eq_iff.mpr (.stuck judged' inside')]
              exact .failed own own' (again left left') nodes related
          | none =>
              have same : left = [] ↔ left' = [] := by
                rw [← List.isEmpty_iff, nodes.paired.isEmpty, List.isEmpty_iff]
              by_cases emptied : n.predicate = .group ∧ left = []
              · obtain ⟨group, rfl⟩ := emptied
                obtain rfl := same.mp rfl
                rw [filterNode_eq_iff.mpr (.emptied judged inside group),
                  filterNode_eq_iff.mpr (.emptied judged' inside' (kind ▸ group))]
                exact .dropped
              · have some_ : n.predicate = .group → left ≠ [] :=
                  fun group nothing => emptied ⟨group, nothing⟩
                have some' : m.predicate = .group → left' ≠ [] :=
                  fun group => mt same.mpr (some_ (kind.trans group))
                rw [filterNode_eq_iff.mpr (.kept judged inside some_),
                  filterNode_eq_iff.mpr (.kept judged' inside' some')]
                exact .kept own own' (again left left') nodes

/-- **Of nodes that correspond becomes the same** when the walks below them go in step. -/
theorem filterNode_inStep (respects : ctx.Respects R F) {depth : Nat} {n m : Node}
    (corresponds : R n m) (below : Paired R n.children m.children)
    (found : Filtered.InStep ctx R F n.children m.children
      (filterBelow ctx depth n.predicate n.children)
      (filterBelow ctx depth m.predicate m.children)) :
    Verdict.InStep ctx R F n m (filterNode ctx depth n) (filterNode ctx depth m) := by
  cases respects.judged n m corresponds with
  | refused judged judged' related =>
      rw [filterNode_eq_iff.mpr (.refused judged), filterNode_eq_iff.mpr (.refused judged')]
      obtain ⟨conjunction, key, predicate, v, children⟩ := n
      obtain ⟨conjunction', key', predicate', v', children'⟩ := m
      exact .failed .same .same corresponds (.refl below) related
  | idle judged judged' =>
      rw [filterNode_eq_iff.mpr (.idle judged), filterNode_eq_iff.mpr (.idle judged')]
      exact .dropped
  | stays judged judged' again =>
      exact filterNode_inStep_of_judge (respects.predicate n m corresponds) judged judged' again
        found

/-- **Walks over forests whose nodes correspond go in step**, also when a fault ends them. -/
theorem filterAll_inStep (respects : ctx.Respects R F) {nodes others : List Node}
    (paired : Paired R nodes others) :
    ∀ depth, Filtered.InStep ctx R F nodes others (filterAll ctx depth nodes)
      (filterAll ctx depth others) := by
  induction paired with
  | nil =>
      intro depth
      rw [filterAll]
      exact ⟨.nil, .none⟩
  | @cons n m rest others corresponds below behind inner after =>
      intro depth
      have found := filterBelow_inStep (respects.predicate n m corresponds) respects.nesting below
        (inner (depth + 1))
      have step := filterNode_inStep respects corresponds below found
      rw [filterAll, filterAll]
      generalize filterNode ctx depth n = verdict at step
      generalize filterNode ctx depth m = verdict' at step
      cases step with
      | dropped => exact ⟨.drop (after depth).nodes, (after depth).failure⟩
      | kept own own' corresponds nodes =>
          exact ⟨.keep own own' corresponds nodes (after depth).nodes, (after depth).failure⟩
      | failed own own' corresponds nodes related =>
          exact ⟨.keep own own' corresponds nodes (.refl behind), .some related⟩

end Criteria
