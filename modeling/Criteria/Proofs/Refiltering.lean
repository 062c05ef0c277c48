/-
# Criteria.Proofs.Refiltering -- doing it again changes nothing

What a filtering leaves is left as it is by a second one, with the same outcome: also when
a fault ended the first, half way through the forest.  The second comes to the node at
fault without dropping anything more, and finds the same fault there.

All that this asks of a context is that a value which a node stays with is a value with
which it stays (`Context.Steady`).  With the tables of a schema both coercions are steady:
an instant is made of an instant again, and is not the zero of a column.

Compiling takes the conjunction off the first node, which filtering does not look at.
-/
import Criteria.Compile
import Criteria.Proofs.Halting

namespace Criteria

set_option autoImplicit false

variable {ctx : Context}

/-! ## Filtering again -/

/-- A node that stays, stays with the value that it was left. -/
def Context.Steady (ctx : Context) : Prop :=
  ∀ key predicate v w, ctx.judge key predicate v = .ok (some w) →
    ctx.judge key predicate w = .ok (some w)

/-- A walk that a fault ended has left the node at fault. -/
theorem failure_of_nodes_eq_nil {depth : Nat} (nodes : List Node)
    (nothing : (filterAll ctx depth nodes).nodes = []) :
    (filterAll ctx depth nodes).failure = none := by
  induction nodes with
  | nil => rw [filterAll]
  | cons n rest ih =>
      rw [filterAll] at nothing ⊢
      cases verdict : filterNode ctx depth n with
      | dropped =>
          rw [verdict] at nothing
          exact ih nothing
      | kept m => simp [verdict] at nothing
      | failed m f => simp [verdict] at nothing

theorem filterBelow_again {depth : Nat} {predicate : Predicate} {children : List Node}
    (inner : filterAll ctx (depth + 1) (filterAll ctx (depth + 1) children).nodes =
      filterAll ctx (depth + 1) children) :
    filterBelow ctx depth predicate (filterBelow ctx depth predicate children).nodes =
      filterBelow ctx depth predicate children := by
  by_cases leaf : predicate ≠ .group ∧ children.isEmpty
  · rw [filterBelow, filterBelow, if_pos leaf]
    exact if_pos ⟨leaf.1, rfl⟩
  by_cases beyond : ctx.limit < depth + 1
  · rw [filterBelow, filterBelow, if_neg leaf, if_pos beyond]
    exact (if_neg leaf).trans (if_pos beyond)
  · have below : filterBelow ctx depth predicate children = filterAll ctx (depth + 1) children := by
      rw [filterBelow, if_neg leaf, if_neg beyond]
    rw [below, filterBelow, if_neg beyond, inner]
    -- Where nothing is left below a node, it is not looked into again.
    split
    · rename_i emptied
      have nothing := List.isEmpty_iff.mp emptied.2
      have whole := failure_of_nodes_eq_nil children nothing
      cases found : filterAll ctx (depth + 1) children with
      | mk left failure =>
          rw [found] at nothing whole
          cases nothing
          cases whole
          rfl
    · rfl

/-- **Filtering again leaves everything as it is**, and ends as the first time. -/
theorem filterAll_again (steady : ctx.Steady) (nodes : List Node) :
    ∀ depth, filterAll ctx depth (filterAll ctx depth nodes).nodes = filterAll ctx depth nodes := by
  induction nodes using forest_induction with
  | nil =>
      intro depth
      rw [filterAll, filterAll]
  | cons n rest inner after =>
      intro depth
      have below : filterBelow ctx depth n.predicate
            (filterBelow ctx depth n.predicate n.children).nodes =
          filterBelow ctx depth n.predicate n.children :=
        filterBelow_again (inner (depth + 1))
      have step := filterStep_filterNode ctx depth n
      rw [filterAll]
      generalize verdict : filterNode ctx depth n = verdict at step
      cases step with
      | refused judged => rw [filterAll, verdict]
      | idle judged => exact after depth
      | @stuck v left f judged stopped =>
          rw [stopped] at below
          have again : filterNode ctx depth { n with value := v, children := left } =
              .failed { n with value := v, children := left } f :=
            filterNode_eq_iff.mpr (.stuck (steady _ _ _ _ judged) below)
          rw [filterAll, again]
      | emptied judged found group => exact after depth
      | @kept v left judged found some_ =>
          rw [found] at below
          have again : filterNode ctx depth { n with value := v, children := left } =
              .kept { n with value := v, children := left } :=
            filterNode_eq_iff.mpr (.kept (steady _ _ _ _ judged) below some_)
          rw [filterAll, again]
          simp only [after depth]

/-! ## Compiling again -/

theorem Thinned.length_le {nodes left : List Node} (thinned : Thinned ctx nodes left) :
    left.length ≤ nodes.length := by
  induction thinned with
  | nil => exact Nat.le_refl 0
  | drop _ ih => exact Nat.le_succ_of_le ih
  | keep _ _ _ _ ih => exact Nat.succ_le_succ ih

theorem filterNode_joined (depth : Nat) (conjunction : Conjunction) (n : Node) :
    filterNode ctx depth (n.joined conjunction) =
      match filterNode ctx depth n with
      | .dropped => .dropped
      | .kept m => .kept (m.joined conjunction)
      | .failed m f => .failed (m.joined conjunction) f := by
  have step := filterStep_filterNode ctx depth n
  generalize filterNode ctx depth n = verdict at step
  cases step with
  | refused judged => exact filterNode_eq_iff.mpr (.refused judged)
  | idle judged => exact filterNode_eq_iff.mpr (.idle judged)
  | stuck judged inner => exact filterNode_eq_iff.mpr (.stuck judged inner)
  | emptied judged inner group => exact filterNode_eq_iff.mpr (.emptied judged inner group)
  | kept judged inner some_ => exact filterNode_eq_iff.mpr (.kept judged inner some_)

/-- A forest that is left as it is stays so when the first node loses its
conjunction. -/
theorem filterAll_dropFirstConjunction {depth : Nat} {nodes : List Node}
    (fixed : filterAll ctx depth nodes = ⟨nodes, none⟩) :
    filterAll ctx depth (dropFirstConjunction nodes) = ⟨dropFirstConjunction nodes, none⟩ := by
  cases nodes with
  | nil => exact fixed
  | cons n rest =>
      rw [filterAll] at fixed
      rw [dropFirstConjunction, filterAll, filterNode_joined]
      cases verdict : filterNode ctx depth n with
      | dropped =>
          rw [verdict] at fixed
          have shorter := (filterAll_thinned ctx rest depth).length_le
          simp only at fixed
          rw [fixed, List.length_cons] at shorter
          exact absurd shorter (Nat.not_succ_le_self _)
      | kept m =>
          rw [verdict] at fixed
          simp only [Filtered.mk.injEq, List.cons.injEq] at fixed
          obtain ⟨⟨rfl, others⟩, whole⟩ := fixed
          simp only [others, whole]
      | failed m f =>
          rw [verdict] at fixed
          cases fixed

theorem dropFirstConjunction_again (nodes : List Node) :
    dropFirstConjunction (dropFirstConjunction nodes) = dropFirstConjunction nodes := by
  cases nodes <;> rfl

/-- **Compiling again gives the same**, fault or text, and leaves the same forest. -/
theorem compile_again (steady : ctx.Steady) (dialect : Dialect) (nodes : List Node) :
    compile ctx dialect (compile ctx dialect nodes).1 = compile ctx dialect nodes := by
  have again : filter ctx (filter ctx nodes).nodes = filter ctx nodes :=
    filterAll_again steady nodes 0
  cases ended : (filter ctx nodes).failure with
  | some f =>
      have failed : (filter ctx (filter ctx nodes).nodes).failure = some f := by rw [again, ended]
      rw [compile_of_fault dialect ended, compile_of_fault dialect failed, again]
  | none =>
      have fixed : filter ctx (filter ctx nodes).nodes = ⟨(filter ctx nodes).nodes, none⟩ := by
        rw [again, ← ended]
      have dropped : filter ctx (dropFirstConjunction (filter ctx nodes).nodes) =
          ⟨dropFirstConjunction (filter ctx nodes).nodes, none⟩ :=
        filterAll_dropFirstConjunction fixed
      rw [compile_of_whole dialect ended, compile_of_whole dialect (congrArg Filtered.failure dropped),
        dropped, dropFirstConjunction_again]

/-! ## Steady contexts -/

/-- A context is steady when coercion is done once and for all, and does not make a value
redundant. -/
theorem steady_of_coercion
    (settles : ∀ p table type v, ctx.resolve p = .ok table → table.type? p.field = some type →
      table.redundant p.field v = false → (ctx.coercion type v).isNull = false →
        ctx.coercion type (ctx.coercion type v) = ctx.coercion type v ∧
          table.redundant p.field (ctx.coercion type v) = false) : ctx.Steady := by
  intro key predicate v w judged
  cases predicate with
  | compare op =>
      rw [Context.judge] at judged ⊢
      obtain ⟨p, table, type, rfl, resolved, redundant, declared, rfl, present⟩ :=
        Context.judgeComparison_eq_some_iff.mp judged
      obtain ⟨same, constrains⟩ := settles p table type v resolved declared redundant present
      exact Context.judgeComparison_eq_some_iff.mpr
        ⟨p, table, type, rfl, resolved, constrains, declared, same.symm, present⟩
  | member negated =>
      rw [Context.judge] at judged ⊢
      obtain rfl := (Context.judgeMembership_eq_some_iff.mp judged).1
      exact judged
  | _ => rfl

/-- With the tables of a schema both coercions are steady. -/
theorem steady_of_schema {s : Schema} (answers : ctx.catalog = s.catalog)
    (coerces : ctx.coercion = .epochMillis ∨ ctx.coercion = .withoutDates) : ctx.Steady := by
  apply steady_of_coercion
  intro p table type v resolved _ redundant present
  cases temporal : type.isTemporal with
  | false =>
      have own : ctx.coercion type v = v := by
        rcases coerces with coerces | coerces
        · rw [coerces]
          exact Coercion.epochMillis_other temporal v
        · simp [coerces, Coercion.withoutDates, temporal]
      rw [own, own]
      exact ⟨rfl, redundant⟩
  | true =>
      rcases coerces with coerces | coerces
      · rw [coerces] at present ⊢
        obtain ⟨i, date⟩ := Coercion.exists_date_of_epochMillis temporal present
        rw [Context.resolve, answers] at resolved
        obtain ⟨t, -, rfl⟩ := Schema.resolve_catalog_eq_ok_iff.mp resolved
        rw [date]
        exact ⟨Coercion.epochMillis_date type i, t.redundant_date p.field i⟩
      · simp [coerces, Coercion.withoutDates, temporal, Value.isNull] at present

/-- **Filtering and compiling again change nothing**, whatever came of the first time. -/
theorem filter_and_compile_again {s : Schema} (answers : ctx.catalog = s.catalog)
    (coerces : ctx.coercion = .epochMillis ∨ ctx.coercion = .withoutDates) (nodes : List Node) :
    filter ctx (filter ctx nodes).nodes = filter ctx nodes ∧
      ∀ dialect, compile ctx dialect (compile ctx dialect nodes).1 = compile ctx dialect nodes := by
  have steady := steady_of_schema answers coerces
  exact ⟨filterAll_again steady nodes 0, fun dialect => compile_again steady dialect nodes⟩

theorem filter_and_compile_again_users :
    (filter (userSchema.context "users" [] 2) haltingExample).failure =
        some (.undeclaredField "users" "ghost") ∧
      filter (userSchema.context "users" [] 2)
          (filter (userSchema.context "users" [] 2) haltingExample).nodes =
        filter (userSchema.context "users" [] 2) haltingExample :=
  ⟨rfl, (filter_and_compile_again (s := userSchema) rfl (.inl rfl) haltingExample).1⟩

end Criteria
