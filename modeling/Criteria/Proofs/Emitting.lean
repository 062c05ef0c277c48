/-
# Criteria.Proofs.Emitting -- what a node writes

A node writes its joiner and then its body (`emitBody`), and in a list of nodes that all
say something each writes behind the ones before it.  Facts about a rendering go by these
equations and an induction over the forest.

A node that is no group binds values of its own, so the binding of a forest fails at nothing
but its levels (`bindAll_failure_eq_none_iff`).

`Within` tells the forests whose groups do not stand too deep.  Filtering leaves no
others, so there the only fault left for a node is that of its own list of items.
-/
import Criteria.Emission
import Criteria.Proofs.Filtering

namespace Criteria

set_option autoImplicit false

/-! ## One node -/

/-- The tokens of a node behind its joiner. -/
def emitBody (limit depth : Nat) (n : Node) : Emitted Token :=
  match n.predicate with
  | .group =>
      let inner : Emitted Token :=
        if limit < depth + 1 then .fail (.nestingTooDeep limit)
        else emitAll limit (depth + 1) true n.children
      ((Emitted.of [.openGroup]).followedBy inner).followedBy (.of [.closeGroup])
  | .fragment => .of [.fragment n.key.text]
  | .nullCheck _ => .of [.key n.key.text, .operator n.predicate]
  | .member _ => emitMembership n.key n.predicate n.value
  | .compare _ =>
      .of ([.key n.key.text, .operator n.predicate] ++ if n.value.isNull then [] else [.hole])

theorem emitNode_eq (limit depth : Nat) (leading : Bool) (n : Node) :
    emitNode limit depth leading n =
      (Emitted.of [.joiner (if leading then .none else n.conjunction)]).followedBy
        (emitBody limit depth n) := by
  obtain ⟨conjunction, key, predicate, v, children⟩ := n
  cases predicate <;> rw [emitNode] <;> rfl

theorem emitNode_failure (limit depth : Nat) (leading : Bool) (n : Node) :
    (emitNode limit depth leading n).failure = (emitBody limit depth n).failure := by
  rw [emitNode_eq, Emitted.followedBy_failure]
  rfl

theorem emitNode_written (limit depth : Nat) (leading : Bool) (n : Node) :
    (emitNode limit depth leading n).written =
      .joiner (if leading then .none else n.conjunction) :: (emitBody limit depth n).written := by
  rw [emitNode_eq, Emitted.followedBy_written rfl]
  rfl

/-- The body of a group within the limit is that of its children, in parentheses. -/
theorem emitBody_group {limit depth : Nat} {n : Node} (group : n.predicate = .group)
    (within : depth + 1 ≤ limit) :
    emitBody limit depth n =
      ((Emitted.of [.openGroup]).followedBy (emitAll limit (depth + 1) true n.children)).followedBy
        (.of [.closeGroup]) := by
  simp only [emitBody, group, if_neg (Nat.not_lt.mpr within)]

theorem emitBody_group_failure {limit depth : Nat} {n : Node} (group : n.predicate = .group)
    (within : depth + 1 ≤ limit) :
    (emitBody limit depth n).failure = (emitAll limit (depth + 1) true n.children).failure := by
  rw [emitBody_group group within, Emitted.followedBy_failure, Emitted.followedBy_failure]
  simp

/-- A group that is written without a fault stands within the limit. -/
theorem within_of_emitBody_group {limit depth : Nat} {n : Node} (group : n.predicate = .group)
    (whole : (emitBody limit depth n).failure = none) : depth + 1 ≤ limit := by
  refine Nat.le_of_not_lt fun tooDeep => ?_
  simp [emitBody, group, tooDeep, Emitted.followedBy_failure] at whole

/-- Such a group is its children, in parentheses. -/
theorem emitBody_group_written {limit depth : Nat} {n : Node} (group : n.predicate = .group)
    (whole : (emitBody limit depth n).failure = none) :
    (emitAll limit (depth + 1) true n.children).failure = none ∧
      (emitBody limit depth n).written =
        .openGroup :: ((emitAll limit (depth + 1) true n.children).written ++ [.closeGroup]) := by
  have within : depth + 1 ≤ limit := within_of_emitBody_group group whole
  have below : (emitAll limit (depth + 1) true n.children).failure = none := by
    rw [← whole, emitBody_group_failure group within]
  have opened : ((Emitted.of [Token.openGroup]).followedBy
      (emitAll limit (depth + 1) true n.children)).failure = none :=
    Emitted.followedBy_failure_eq_none.mpr ⟨rfl, below⟩
  refine ⟨below, ?_⟩
  rw [emitBody_group group within, Emitted.followedBy_written opened,
    Emitted.followedBy_written rfl]
  rfl

/-- The body of a node that is no group does not ask how deep it stands, and only a
membership can fail. -/
theorem emitBody_failure_of_plain {limit depth : Nat} {n : Node} (plain : n.predicate ≠ .group)
    (list : n.predicate.isMembership = false) : (emitBody limit depth n).failure = none := by
  cases predicate : n.predicate with
  | group => exact absurd predicate plain
  | member negated => simp [predicate, Predicate.isMembership] at list
  | _ => simp [emitBody, predicate]

theorem emitBody_membership {limit depth : Nat} {n : Node}
    (list : n.predicate.isMembership = true) :
    emitBody limit depth n = emitMembership n.key n.predicate n.value := by
  cases predicate : n.predicate with
  | member negated => simp only [emitBody, predicate]
  | _ => simp [predicate, Predicate.isMembership] at list

/-! ## Lists of nodes -/

theorem isEmptyGroup_of_says {n : Node} (speaks : n.Says) : n.isEmptyGroup = false := by
  rw [Node.isEmptyGroup]
  by_cases group : n.predicate = .group
  · rw [Node.Says, group] at speaks
    simp [speaks]
  · simp [group]

/-- A node that says something is written before those behind it, which do not lead. -/
theorem emitAll_cons {limit depth : Nat} {leading : Bool} {n : Node} {rest : List Node}
    (speaks : n.Says) :
    emitAll limit depth leading (n :: rest) =
      (emitNode limit depth leading n).followedBy (emitAll limit depth false rest) := by
  rw [emitAll, isEmptyGroup_of_says speaks, if_neg Bool.false_ne_true]

theorem emitAll_cons_failure {limit depth : Nat} {leading : Bool} {n : Node} {rest : List Node}
    (speaks : n.Says) :
    (emitAll limit depth leading (n :: rest)).failure =
      (emitBody limit depth n).failure.or (emitAll limit depth false rest).failure := by
  rw [emitAll_cons speaks, Emitted.followedBy_failure, emitNode_failure]

/-! ## Binding -/

/-- A group binds what its children do, if it does not stand too deep for them. -/
theorem bindNode_of_group {limit depth : Nat} {n : Node} (group : n.predicate = .group) :
    bindNode limit depth n =
      if limit < depth + 1 then .fail (.nestingTooDeep limit)
      else bindAll limit (depth + 1) n.children := by
  obtain ⟨conjunction, key, predicate, v, children⟩ := n
  cases group
  rw [bindNode]

/-- Any other node binds values of its own, wherever it stands. -/
theorem exists_bindNode_eq_of {n : Node} (plain : n.predicate ≠ .group) :
    ∃ values, ∀ limit depth, bindNode limit depth n = .of values := by
  obtain ⟨conjunction, key, predicate, v, children⟩ := n
  cases predicate with
  | group => exact absurd rfl plain
  | fragment => cases v <;> exact ⟨_, fun _ _ => rfl⟩
  | _ => exact ⟨_, fun _ _ => rfl⟩

/-- Only a group that stands too deep can stop the collecting. -/
theorem bindAll_failure_cases (limit : Nat) (nodes : List Node) :
    ∀ depth, (bindAll limit depth nodes).failure = none ∨
      (bindAll limit depth nodes).failure = some (.nestingTooDeep limit) := by
  induction nodes using forest_induction with
  | nil => exact fun _ => .inl rfl
  | cons n rest inner after =>
      intro depth
      have own : (bindNode limit depth n).failure = none ∨
          (bindNode limit depth n).failure = some (.nestingTooDeep limit) := by
        by_cases group : n.predicate = .group
        · rw [bindNode_of_group group]
          split
          · exact .inr rfl
          · exact inner (depth + 1)
        · obtain ⟨values, bound⟩ := exists_bindNode_eq_of group
          exact .inl (by rw [bound]; rfl)
      rw [bindAll, Emitted.followedBy_failure]
      rcases own with whole | ended
      · rw [whole, Option.none_or]
        exact after depth
      · rw [ended, Option.some_or]
        exact .inr rfl

/-- **Collecting ends without a fault exactly when all groups stand within the limit**, the
empty ones among them. -/
theorem bindAll_failure_eq_none_iff (limit : Nat) (nodes : List Node) :
    ∀ depth, (bindAll limit depth nodes).failure = none ↔
      KindWithin (·.predicate = .group) limit depth nodes := by
  induction nodes using forest_induction with
  | nil =>
      intro depth
      exact iff_of_true rfl (kindWithin_nil _ limit depth)
  | cons n rest inner after =>
      intro depth
      rw [bindAll, Emitted.followedBy_failure_eq_none, after, kindWithin_cons_iff, ← and_assoc]
      apply and_congr_left'
      by_cases group : n.predicate = .group
      · rw [bindNode_of_group group]
        by_cases beyond : limit < depth + 1
        · have above : ¬ depth + 1 ≤ limit := Nat.not_le.mpr beyond
          simp [group, beyond, above]
        · have within : depth + 1 ≤ limit := Nat.le_of_not_lt beyond
          simp [group, beyond, within, inner]
      · obtain ⟨values, bound⟩ := exists_bindNode_eq_of group
        simp [bound, group]

/-! ## Levels within the limit -/

/-- Groups stand within the limit in a forest `depth` levels down. -/
inductive Within (limit : Nat) : Nat → List Node → Prop where
  | nil {depth : Nat} : Within limit depth []
  | cons {depth : Nat} {n : Node} {rest : List Node} :
      (n.predicate = .group → depth + 1 ≤ limit) → Within limit (depth + 1) n.children →
      Within limit depth rest → Within limit depth (n :: rest)

theorem Within.cases {limit depth : Nat} {n : Node} {rest : List Node}
    (within : Within limit depth (n :: rest)) :
    (n.predicate = .group → depth + 1 ≤ limit) ∧ Within limit (depth + 1) n.children ∧
      Within limit depth rest := by
  cases within with
  | cons shallow below behind => exact ⟨shallow, below, behind⟩

theorem Within.kindWithin {limit depth : Nat} {nodes : List Node}
    (within : Within limit depth nodes) :
    KindWithin (·.predicate = .group) limit depth nodes := by
  induction within with
  | nil => exact kindWithin_nil _ limit _
  | cons shallow _ _ inner after =>
      apply kindWithin_cons_iff.mpr
      exact ⟨shallow, fun _ => inner, after⟩

/-- Binding asks for nothing but groups within the limit. -/
theorem bindAll_failure_of_within (limit : Nat) (nodes : List Node) :
    ∀ depth, Within limit depth nodes → (bindAll limit depth nodes).failure = none := by
  intro depth within
  exact (bindAll_failure_eq_none_iff limit nodes depth).mpr within.kindWithin

/-- **Filtering leaves groups within the limit.** -/
theorem Leaves.within {ctx : Context} {depth : Nat} {nodes left : List Node}
    (leaves : Leaves ctx depth nodes left) : Within ctx.limit depth left := by
  induction leaves with
  | nil => exact .nil
  | idle _ _ after => exact after
  | emptied _ _ _ _ _ after => exact after
  | kept _ within _ _ _ inner after => exact .cons (fun group => within (.inl group)) inner after

end Criteria
