/-
# Criteria.Proofs.NestingLimit -- a higher limit only lifts refusals

Filtering, binding and writing compare the depth of a level with the limit and do nothing
else with it.  So a walk that the limit does not stop is the same walk under every higher
limit: the same nodes are dropped, the same faults found, the same tokens and values given
out.  Each of the three walks has its own lemma, and `compile_under_higher_limit` puts them
together.

The other way round, a compilation that succeeds under the higher limit either succeeds
alike under the lower one or is refused there, as nested too deep.  There are no refusals
where the forest has no more levels than the limit allows (`compile_ne_nestingTooDeep`).
-/
import Criteria.Proofs.MixedLists

namespace Criteria

set_option autoImplicit false

variable {ctx : Context} {low high : Nat}

/-- The same context with another limit. -/
def Context.upTo (ctx : Context) (limit : Nat) : Context :=
  { ctx with limit }

/-- A node is judged by itself without regard to the limit. -/
theorem Context.judge_upTo (ctx : Context) (limit : Nat) :
    (ctx.upTo limit).judge = ctx.judge := by
  funext key predicate v
  cases predicate <;> rfl

/-! ## Filtering -/

/-- A level that is looked into under a limit is looked into under a higher one. -/
theorem filterBelow_upTo (le : low ≤ high) {depth : Nat} (predicate : Predicate)
    {children : List Node}
    (inner : (filterAll (ctx.upTo low) (depth + 1) children).failure ≠
        some (.nestingTooDeep low) →
      filterAll (ctx.upTo high) (depth + 1) children =
        filterAll (ctx.upTo low) (depth + 1) children)
    (allowed : (filterBelow (ctx.upTo low) depth predicate children).failure ≠
      some (.nestingTooDeep low)) :
    filterBelow (ctx.upTo high) depth predicate children =
      filterBelow (ctx.upTo low) depth predicate children := by
  by_cases leaf : predicate ≠ .group ∧ children.isEmpty
  · rw [filterBelow, filterBelow, if_pos leaf, if_pos leaf]
  by_cases beyond : low < depth + 1
  · have refused : (filterBelow (ctx.upTo low) depth predicate children).failure =
        some (.nestingTooDeep low) := by
      rw [filterBelow, if_neg leaf, if_pos (show (ctx.upTo low).limit < depth + 1 from beyond)]
      rfl
    exact absurd refused allowed
  · have within : ¬ high < depth + 1 := by omega
    have looked : ∀ {limit}, ¬ limit < depth + 1 →
        filterBelow (ctx.upTo limit) depth predicate children =
          filterAll (ctx.upTo limit) (depth + 1) children := by
      intro limit shallow
      rw [filterBelow, if_neg leaf,
        if_neg (show ¬ (ctx.upTo limit).limit < depth + 1 from shallow)]
    rw [looked beyond] at allowed
    rw [looked beyond, looked within]
    exact inner allowed

/-- **A filtering that the limit does not stop is the same under a higher limit**, also
when another fault ends it. -/
theorem filterAll_upTo (le : low ≤ high) (nodes : List Node) :
    ∀ depth, (filterAll (ctx.upTo low) depth nodes).failure ≠ some (.nestingTooDeep low) →
      filterAll (ctx.upTo high) depth nodes = filterAll (ctx.upTo low) depth nodes := by
  induction nodes using forest_induction with
  | nil =>
      intro depth _
      rw [filterAll, filterAll]
  | cons n rest inner after =>
      intro depth allowed
      have judges : ∀ {found}, (ctx.upTo low).judge n.key n.predicate n.value = found →
          (ctx.upTo high).judge n.key n.predicate n.value = found := by
        intro found judged
        rw [Context.judge_upTo] at judged ⊢
        exact judged
      have below := filterBelow_upTo le n.predicate (inner (depth + 1))
      have step := filterStep_filterNode (ctx.upTo low) depth n
      rw [filterAll] at allowed
      rw [filterAll, filterAll]
      generalize filterNode (ctx.upTo low) depth n = verdict at step allowed
      -- Whatever became of the node under the lower limit becomes of it under the higher.
      have same : ∀ {found : Verdict}, FilterStep (ctx.upTo high) depth n found →
          filterNode (ctx.upTo high) depth n = found := filterNode_eq_iff.mpr
      cases step with
      | refused judged =>
          rw [same (.refused (judges judged))]
      | idle judged =>
          rw [same (.idle (judges judged))]
          exact after depth allowed
      | stuck judged found =>
          have again := (below (by rw [found]; exact allowed)).trans found
          rw [same (.stuck (judges judged) again)]
      | emptied judged found group =>
          have again := (below (by rw [found]; exact (Option.some_ne_none _).symm)).trans found
          rw [same (.emptied (judges judged) again group)]
          exact after depth allowed
      | kept judged found some_ =>
          have again := (below (by rw [found]; exact (Option.some_ne_none _).symm)).trans found
          rw [same (.kept (judges judged) again some_)]
          simp only [after depth allowed]

/-! ## Writing and binding -/

/-- Of two walks in a row that do not end with a certain fault, neither does. -/
theorem Emitted.followedBy_eq_of_allowed {α : Type} {a b a' b' : Emitted α} {f : Fault}
    (allowed : (a.followedBy b).failure ≠ some f) (first : a.failure ≠ some f → a' = a)
    (later : b.failure ≠ some f → b' = b) : a'.followedBy b' = a.followedBy b := by
  rw [Emitted.followedBy_failure] at allowed
  cases ended : a.failure with
  | some g =>
      rw [ended, Option.some_or] at allowed
      rw [first (by rw [ended]; exact allowed), Emitted.followedBy, Emitted.followedBy, ended]
  | none =>
      rw [ended, Option.none_or] at allowed
      rw [first (by rw [ended]; exact (Option.some_ne_none f).symm), later allowed]

theorem emitBody_upTo (le : low ≤ high) {depth : Nat} {n : Node}
    (inner : (emitAll low (depth + 1) true n.children).failure ≠ some (.nestingTooDeep low) →
      emitAll high (depth + 1) true n.children = emitAll low (depth + 1) true n.children)
    (allowed : (emitBody low depth n).failure ≠ some (.nestingTooDeep low)) :
    emitBody high depth n = emitBody low depth n := by
  by_cases group : n.predicate = .group
  · by_cases beyond : low < depth + 1
    · have refused : (emitBody low depth n).failure = some (.nestingTooDeep low) := by
        simp [emitBody, group, beyond, Emitted.followedBy_failure]
      exact absurd refused allowed
    · have within : depth + 1 ≤ low := Nat.le_of_not_lt beyond
      rw [emitBody_group_failure group within] at allowed
      rw [emitBody_group group within, emitBody_group group (Nat.le_trans within le), inner allowed]
  · unfold emitBody
    cases predicate : n.predicate with
    | group => exact absurd predicate group
    | _ => rfl

/-- **A writing that the limit does not stop gives out the same tokens under a higher
limit.** -/
theorem emitAll_upTo (le : low ≤ high) (nodes : List Node) :
    ∀ depth leading, (emitAll low depth leading nodes).failure ≠ some (.nestingTooDeep low) →
      emitAll high depth leading nodes = emitAll low depth leading nodes := by
  induction nodes using forest_induction with
  | nil =>
      intro depth leading _
      rw [emitAll, emitAll]
  | cons n rest inner after =>
      intro depth leading allowed
      rw [emitAll] at allowed ⊢
      rw [emitAll]
      by_cases empty : n.isEmptyGroup = true
      · rw [if_pos empty] at allowed
        rw [if_pos empty, if_pos empty]
        exact after depth leading allowed
      · rw [if_neg empty] at allowed
        rw [if_neg empty, if_neg empty]
        refine Emitted.followedBy_eq_of_allowed allowed (fun own => ?_) (after depth false)
        rw [emitNode_failure] at own
        rw [emitNode_eq, emitNode_eq, emitBody_upTo le (inner (depth + 1) true) own]

theorem bindNode_upTo (le : low ≤ high) {depth : Nat} {n : Node}
    (inner : (bindAll low (depth + 1) n.children).failure ≠ some (.nestingTooDeep low) →
      bindAll high (depth + 1) n.children = bindAll low (depth + 1) n.children)
    (allowed : (bindNode low depth n).failure ≠ some (.nestingTooDeep low)) :
    bindNode high depth n = bindNode low depth n := by
  by_cases group : n.predicate = .group
  · rw [bindNode_of_group group] at allowed
    rw [bindNode_of_group group, bindNode_of_group group]
    by_cases beyond : low < depth + 1
    · rw [if_pos beyond] at allowed
      exact absurd rfl allowed
    · have within : ¬ high < depth + 1 := by omega
      rw [if_neg beyond] at allowed
      rw [if_neg beyond, if_neg within]
      exact inner allowed
  · obtain ⟨values, bound⟩ := exists_bindNode_eq_of group
    rw [bound, bound]

/-- **So does a binding its values.** -/
theorem bindAll_upTo (le : low ≤ high) (nodes : List Node) :
    ∀ depth, (bindAll low depth nodes).failure ≠ some (.nestingTooDeep low) →
      bindAll high depth nodes = bindAll low depth nodes := by
  induction nodes using forest_induction with
  | nil =>
      intro depth _
      rw [bindAll, bindAll]
  | cons n rest inner after =>
      intro depth allowed
      rw [bindAll] at allowed ⊢
      rw [bindAll]
      exact Emitted.followedBy_eq_of_allowed allowed (bindNode_upTo le (inner (depth + 1)))
        (after depth)

/-! ## Compiling -/

theorem compileUnfiltered_upTo (le : low ≤ high) (dialect : Dialect) (nodes : List Node)
    (allowed : compileUnfiltered dialect low nodes ≠ .error (.nestingTooDeep low)) :
    compileUnfiltered dialect high nodes = compileUnfiltered dialect low nodes := by
  have bound : (bindings low nodes).failure ≠ some (.nestingTooDeep low) := by
    intro refused
    rw [compileUnfiltered_eq, refused] at allowed
    exact allowed rfl
  have same : bindings high nodes = bindings low nodes := bindAll_upTo le nodes 0 bound
  cases ended : (bindings low nodes).failure with
  | some f =>
      rw [compileUnfiltered_eq, compileUnfiltered_eq, same, ended, Option.some_or, Option.some_or]
  | none =>
      have written : (emit low nodes).failure ≠ some (.nestingTooDeep low) := by
        intro refused
        rw [compileUnfiltered_eq, ended, refused] at allowed
        exact allowed rfl
      rw [compileUnfiltered_eq, compileUnfiltered_eq, same,
        show emit high nodes = emit low nodes from emitAll_upTo le nodes 0 false written]

theorem compile_upTo (le : low ≤ high) (dialect : Dialect) (nodes : List Node)
    (allowed : (compile (ctx.upTo low) dialect nodes).2 ≠ .error (.nestingTooDeep low)) :
    compile (ctx.upTo high) dialect nodes = compile (ctx.upTo low) dialect nodes := by
  cases ended : (filter (ctx.upTo low) nodes).failure with
  | some f =>
      have walked : (filter (ctx.upTo low) nodes).failure ≠ some (.nestingTooDeep low) := by
        rw [ended]
        rw [compile_of_fault dialect ended] at allowed
        exact fun refused => allowed (congrArg Except.error (Option.some.inj refused))
      have same : filter (ctx.upTo high) nodes = filter (ctx.upTo low) nodes :=
        filterAll_upTo le nodes 0 walked
      have failed : (filter (ctx.upTo high) nodes).failure = some f := by rw [same, ended]
      rw [compile_of_fault dialect ended, compile_of_fault dialect failed, same]
  | none =>
      have walked : (filter (ctx.upTo low) nodes).failure ≠ some (.nestingTooDeep low) := by
        rw [ended]
        exact (Option.some_ne_none _).symm
      have same : filter (ctx.upTo high) nodes = filter (ctx.upTo low) nodes :=
        filterAll_upTo le nodes 0 walked
      have whole : (filter (ctx.upTo high) nodes).failure = none := by rw [same, ended]
      rw [compile_of_whole dialect ended] at allowed
      rw [compile_of_whole dialect ended, compile_of_whole dialect whole, same]
      exact congrArg (Prod.mk _) (compileUnfiltered_upTo le dialect _ allowed)

/-! ## Levels -/

mutual

/-- The levels below a node.  An empty group has one. -/
def Node.levels : Node → Nat
  | ⟨_, _, predicate, _, children⟩ =>
      if predicate ≠ .group ∧ children.isEmpty then 0 else levelsAll children + 1

/-- The levels below a list of nodes. -/
def levelsAll : List Node → Nat
  | [] => 0
  | n :: rest => max n.levels (levelsAll rest)

end

theorem levels_of_deeper {n : Node} (deeper : n.predicate = .group ∨ n.children ≠ []) :
    n.levels = levelsAll n.children + 1 := by
  obtain ⟨conjunction, key, predicate, v, children⟩ := n
  rw [Node.levels, if_neg]
  rintro ⟨plain, empty⟩
  exact deeper.elim plain fun some_ => some_ (List.isEmpty_iff.mp empty)

/-- Filtering refuses no level of a forest that has no more of them than are left. -/
theorem filterAll_failure_ne_nestingTooDeep (limit : Nat) (nodes : List Node) :
    ∀ depth, depth + levelsAll nodes ≤ ctx.limit →
      (filterAll ctx depth nodes).failure ≠ some (.nestingTooDeep limit) := by
  induction nodes using forest_induction with
  | nil =>
      intro depth _
      rw [filterAll]
      exact (Option.some_ne_none _).symm
  | cons n rest inner after =>
      intro depth levels
      rw [levelsAll] at levels
      have ofRest : depth + levelsAll rest ≤ ctx.limit := by omega
      have ofNode : depth + n.levels ≤ ctx.limit := by omega
      have step := filterStep_filterNode ctx depth n
      rw [filterAll]
      generalize filterNode ctx depth n = verdict at step
      cases step with
      | refused judged =>
          intro refused
          cases refused
          cases Context.objection_of_judge judged
      | idle _ => exact after depth ofRest
      | emptied _ _ _ => exact after depth ofRest
      | kept _ _ _ => exact after depth ofRest
      | stuck judged stopped =>
          intro refused
          cases refused
          rcases filterBelow_eq_fault_iff.mp stopped with
            ⟨deeper, beyond, -, -⟩ | ⟨within, stopped⟩
          · rw [levels_of_deeper deeper] at ofNode
            omega
          · by_cases deeper : n.predicate = .group ∨ n.children ≠ []
            · rw [levels_of_deeper deeper] at ofNode
              have fits : depth + 1 + levelsAll n.children ≤ ctx.limit := by omega
              exact inner (depth + 1) fits (congrArg Filtered.failure stopped)
            · obtain ⟨-, none_⟩ := not_or.mp deeper
              rw [Classical.not_not.mp none_, filterAll] at stopped
              cases stopped

/-- **Only a forest with more levels than the limit is refused for them.** -/
theorem compile_ne_nestingTooDeep {dialect : Dialect} {nodes : List Node} {limit : Nat}
    (levels : levelsAll nodes ≤ ctx.limit) :
    (compile ctx dialect nodes).2 ≠ .error (.nestingTooDeep limit) := by
  intro failed
  cases ended : (filter ctx nodes).failure with
  | some f =>
      rw [compile_of_fault dialect ended] at failed
      cases failed
      exact filterAll_failure_ne_nestingTooDeep limit nodes 0 (by omega) ended
  | none =>
      have ends := writingEnds_filter ended
      rw [(compile_eq_error_iff_of_whole ended).mp failed] at ends
      obtain ⟨key, expected, found, mixed⟩ := ends.firstRefusal.eq_mixedMembership
      cases mixed

/-! ## The theorem -/

/-- **The limit is nothing but a limit.**  What comes of a compilation that is not refused as
nested too deep comes of it under every higher limit, the forest that is left included; and
one that succeeds under the higher limit succeeds alike under the lower, or is refused
there. -/
theorem compile_under_higher_limit (ctx : Context) (dialect : Dialect) (nodes : List Node)
    {low high : Nat} (le : low ≤ high) :
    ((compile (ctx.upTo low) dialect nodes).2 ≠ .error (.nestingTooDeep low) →
      compile (ctx.upTo high) dialect nodes = compile (ctx.upTo low) dialect nodes) ∧
    ∀ left c, compile (ctx.upTo high) dialect nodes = (left, .ok c) →
      compile (ctx.upTo low) dialect nodes = (left, .ok c) ∨
        (compile (ctx.upTo low) dialect nodes).2 = .error (.nestingTooDeep low) := by
  refine ⟨compile_upTo le dialect nodes, ?_⟩
  intro left c compiled
  by_cases refused : (compile (ctx.upTo low) dialect nodes).2 = .error (.nestingTooDeep low)
  · exact .inr refused
  · left
    rw [← compile_upTo le dialect nodes refused]
    exact compiled

/-- A group in a group. -/
def limitExample : List Node :=
  [.ofPath ⟨none, "id"⟩ (.compare .gt) (.int 5),
    (Node.group [.ofPath ⟨none, "born"⟩ (.nullCheck true) .null,
      (Node.group [.ofPath ⟨none, "id"⟩ (.compare .ne) (.int 7)]).joined .or]).joined .and]

/-- Two levels of groups are enough for it, and one is not. -/
theorem compile_under_higher_limit_users :
    (2 ≤ 64 ∧ compile (userSchema.context "users" [] 2) .postgres limitExample =
        (limitExample,
          .ok ⟨"id > $1 AND ( born IS NOT NULL OR ( id <> $2 ) )", [.int 5, .int 7], 2⟩) ∧
      compile (userSchema.context "users" [] 64) .postgres limitExample =
        compile (userSchema.context "users" [] 2) .postgres limitExample) ∧
    1 ≤ 64 ∧ (compile (userSchema.context "users" [] 1) .postgres limitExample).2 =
      .error (.nestingTooDeep 1) := by
  have rendered : compile (userSchema.context "users" [] 2) .postgres limitExample =
      (limitExample,
        .ok ⟨"id > $1 AND ( born IS NOT NULL OR ( id <> $2 ) )", [.int 5, .int 7], 2⟩) := rfl
  have same := (compile_under_higher_limit (userSchema.context "users" [] 0) .postgres
    limitExample (show 2 ≤ 64 by decide)).1 nofun
  refine ⟨⟨by decide, rendered, same⟩, by decide, ?_⟩
  have either := (compile_under_higher_limit (userSchema.context "users" [] 0) .postgres
    limitExample (show 1 ≤ 64 by decide)).2 _ _ (same.trans rendered)
  exact either.resolve_left nofun

end Criteria
