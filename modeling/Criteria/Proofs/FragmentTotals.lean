/-
# Criteria.Proofs.FragmentTotals -- what the two totals of a rendering tell of its fragments

A rendering gives the number of its placeholders and its values.  Only a fragment can ask for
more or fewer placeholders than it has values (`Node.surplus`), so the two totals differ by
the sum over all fragments on the walk.

A fragment that is out of step therefore shows when the sum is not zero, as it is when all
fragments err to the same side (`totals_differ_by_surplus`).  Fragments that err to different
sides may cancel out, and then nothing shows (`cancelling_fragments_unseen`).
-/
import Criteria.Proofs.RenderedConditions
import Mathlib.Algebra.Order.BigOperators.Group.List
import Mathlib.Algebra.Order.Monoid.OrderDual
import Mathlib.Algebra.Order.Ring.Int

namespace Criteria

set_option autoImplicit false

/-! ## One node -/

/-- The question marks that a fragment has beyond its items; negative when it has too few. -/
def Node.surplus (n : Node) : Int :=
  match n.predicate with
  | .fragment => n.key.text.toList.count '?' - n.value.bound.length
  | _ => 0

theorem Node.surplus_of_ne_fragment {n : Node} (other : n.predicate ≠ .fragment) :
    n.surplus = 0 := by
  unfold Node.surplus
  cases predicate : n.predicate with
  | fragment => exact absurd predicate other
  | _ => rfl

theorem Node.balanced_iff_surplus {n : Node} : n.Balanced ↔ n.surplus = 0 := by
  by_cases fragment : n.predicate = .fragment
  · simp only [Node.Balanced, Node.surplus, fragment, forall_const]
    omega
  · exact iff_of_true (fun isFragment => absurd isFragment fragment)
      (surplus_of_ne_fragment fragment)

/-- The placeholders that several tokens ask for. -/
def holesOf (tokens : List Token) : Nat :=
  (tokens.map Token.holes).sum

theorem count_hole_layOut_eq_holesOf (tokens : List Token) :
    (layOut tokens).count .hole = holesOf tokens := by
  induction tokens with
  | nil => rfl
  | cons t rest ih =>
      rw [layOut, count_hole_beside, ih, Token.count_hole_pieces]
      rfl

theorem holesOf_append (before after : List Token) :
    holesOf (before ++ after) = holesOf before + holesOf after := by
  rw [holesOf, List.map_append, List.sum_append]
  rfl

/-- The joiner asks for no placeholder. -/
theorem holesOf_emitNode (limit depth : Nat) (leading : Bool) (n : Node) :
    holesOf (emitNode limit depth leading n).written = holesOf (emitBody limit depth n).written := by
  rw [emitNode_written]
  exact Nat.zero_add _

/-- A node that is no group asks for as many placeholders as it has values, its surplus
aside. -/
theorem holesOf_emitBody_of_plain {n : Node} (plain : n.predicate ≠ .group) (limit depth : Nat) :
    (holesOf (emitBody limit depth n).written : Int) =
      (bindNode limit depth n).written.length + n.surplus := by
  obtain ⟨conjunction, key, predicate, v, children⟩ := n
  cases predicate with
  | group => exact absurd rfl plain
  | fragment =>
      have holes : holesOf (emitBody limit depth ⟨conjunction, key, .fragment, v, children⟩).written =
          key.text.toList.count '?' := Nat.add_zero _
      have values : (bindNode limit depth ⟨conjunction, key, .fragment, v, children⟩).written.length
          = v.bound.length := by
        cases v <;> simp [bindNode, Value.bound]
      rw [holes, values]
      simp only [Node.surplus]
      omega
  | nullCheck negated => rfl
  | member negated =>
      have holes : holesOf (emitMembership key (.member negated) v).written = 0 := by
        unfold emitMembership
        cases (members? key v).bind (literals key.text) <;> rfl
      simp only [emitBody, holes]
      rfl
  | compare op =>
      simp only [emitBody, bindNode]
      cases v.isNull <;> rfl

/-! ## A forest -/

/-- What all fragments on the walk have too many or too few question marks. -/
def surplusAll (nodes : List Node) : Int :=
  ((walkAll nodes).map Node.surplus).sum

theorem surplusAll_cons_group {n : Node} (group : n.predicate = .group) (rest : List Node) :
    surplusAll (n :: rest) = surplusAll n.children + surplusAll rest := by
  have own : n.surplus = 0 := Node.surplus_of_ne_fragment (by simp [group])
  rw [surplusAll, walkAll_cons_group group, List.map_cons, List.sum_cons, own, Int.zero_add,
    List.map_append, List.sum_append]
  rfl

theorem surplusAll_cons_plain {n : Node} (plain : n.predicate ≠ .group) (rest : List Node) :
    surplusAll (n :: rest) = n.surplus + surplusAll rest := by
  rw [surplusAll, walkAll_cons_plain plain, List.map_cons, List.sum_cons]
  rfl

/-- A group asks for the placeholders of its children. -/
theorem holesOf_emitBody_group {limit depth : Nat} {n : Node} (group : n.predicate = .group)
    (whole : (emitBody limit depth n).failure = none) :
    holesOf (emitBody limit depth n).written =
      holesOf (emitAll limit (depth + 1) true n.children).written := by
  rw [(emitBody_group_written group whole).2, ← List.singleton_append, holesOf_append,
    holesOf_append]
  exact Nat.zero_add _

/-- **The placeholders of a forest are its values and the surplus of its fragments.** -/
theorem holesOf_emitAll (limit : Nat) (nodes : List Node) :
    ∀ depth leading, (emitAll limit depth leading nodes).failure = none →
      (bindAll limit depth nodes).failure = none →
      (holesOf (emitAll limit depth leading nodes).written : Int) =
        (bindAll limit depth nodes).written.length + surplusAll nodes := by
  induction nodes using forest_induction with
  | nil => intros; rfl
  | cons n rest inner after =>
      intro depth leading written bound
      rw [bindAll, Emitted.followedBy_failure_eq_none] at bound
      obtain ⟨boundFirst, boundRest⟩ := bound
      rw [bindAll, Emitted.followedBy_written boundFirst, List.length_append]
      by_cases empty : n.isEmptyGroup = true
      · -- An empty group is passed over in writing and has no values to bind.
        obtain ⟨isGroup, noChildren⟩ := (Bool.and_eq_true _ _).mp empty
        have group : n.predicate = .group := of_decide_eq_true isGroup
        rw [emitAll, if_pos empty] at written ⊢
        rw [bindNode_group group boundFirst, surplusAll_cons_group group,
          List.isEmpty_iff.mp noChildren, after depth leading written boundRest]
        simp [bindAll, surplusAll, walkAll]
      · rw [emitAll, if_neg empty, Emitted.followedBy_failure_eq_none, emitNode_failure] at written
        obtain ⟨writtenFirst, writtenRest⟩ := written
        have whole : (emitNode limit depth leading n).failure = none := by
          rw [emitNode_failure, writtenFirst]
        have others := after depth false writtenRest boundRest
        rw [emitAll, if_neg empty, Emitted.followedBy_written whole, holesOf_append,
          holesOf_emitNode]
        by_cases group : n.predicate = .group
        · have below : (bindAll limit (depth + 1) n.children).failure = none := by
            rw [← bindNode_group group boundFirst]
            exact boundFirst
          have children := inner (depth + 1) true (emitBody_group_written group writtenFirst).1 below
          rw [holesOf_emitBody_group group writtenFirst, bindNode_group group boundFirst,
            surplusAll_cons_group group]
          omega
        · have own := holesOf_emitBody_of_plain group limit depth
          rw [surplusAll_cons_plain group]
          omega

theorem surplusAll_of_compileUnfiltered {dialect : Dialect} {limit : Nat} {nodes : List Node}
    {c : Compiled} (compiled : compileUnfiltered dialect limit nodes = .ok c) :
    (c.placeholders : Int) - c.params.length = surplusAll nodes := by
  obtain ⟨bound, written, rfl⟩ := compileUnfiltered_eq_ok_iff.mp compiled
  have total : (holesOf (emit limit nodes).written : Int) =
      (bindings limit nodes).written.length + surplusAll nodes :=
    holesOf_emitAll limit nodes 0 false written bound
  rw [count_hole_layOut_eq_holesOf, total]
  exact add_sub_cancel_left _ _

/-! ## Fragments that err to the same side -/

/-- Numbers on one side of zero add up to zero only when all of them are zero. -/
theorem sum_ne_zero_of_one_side {numbers : List Int} {x : Int} (member : x ∈ numbers)
    (some_ : x ≠ 0) (side : (∀ y ∈ numbers, 0 ≤ y) ∨ ∀ y ∈ numbers, y ≤ 0) : numbers.sum ≠ 0 := by
  rcases side with above | below
  · intro zero
    exact some_ (List.all_zero_of_le_zero_le_of_sum_eq_zero above zero member)
  · intro zero
    exact some_ (List.all_zero_of_le_zero_le_of_sum_eq_zero (M := ℤᵒᵈ) below zero member)

/-- **The totals of a rendering differ by the surplus of its fragments.**  So a fragment that is
out of step shows in them when all fragments err to the same side. -/
theorem totals_differ_by_surplus {dialect : Dialect} {limit : Nat} {nodes : List Node}
    {c : Compiled} (compiled : compileUnfiltered dialect limit nodes = .ok c) :
    (c.placeholders : Int) - c.params.length = surplusAll nodes ∧
      (c.placeholders ≠ c.params.length ↔ surplusAll nodes ≠ 0) ∧
      ((∃ n, Reached n nodes ∧ ¬ n.Balanced) →
        ((∀ n, Reached n nodes → 0 ≤ n.surplus) ∨ ∀ n, Reached n nodes → n.surplus ≤ 0) →
        c.placeholders ≠ c.params.length) := by
  have difference := surplusAll_of_compileUnfiltered compiled
  have shows_ : c.placeholders ≠ c.params.length ↔ surplusAll nodes ≠ 0 := by omega
  refine ⟨difference, shows_, ?_⟩
  rintro ⟨n, reached, outOfStep⟩ side
  have member : n.surplus ∈ (walkAll nodes).map Node.surplus :=
    List.mem_map_of_mem ((mem_walkAll_iff nodes).mpr reached)
  have some_ : n.surplus ≠ 0 := fun zero => outOfStep (Node.balanced_iff_surplus.mpr zero)
  have overWalk : ∀ {P : Int → Prop}, (∀ m, Reached m nodes → P m.surplus) →
      ∀ y ∈ (walkAll nodes).map Node.surplus, P y := fun all =>
    List.forall_mem_map.mpr fun m onWalk => all m ((mem_walkAll_iff nodes).mp onWalk)
  exact shows_.mpr (sum_ne_zero_of_one_side member some_ (side.imp overWalk overWalk))

/-- Two fragments with a question mark too many each, one of them in a group, around one that is
in step. -/
def surplusExample : List Node :=
  [.fragment "a = ?" (.int 5), (Node.fragment "b < ?" (.array [.int 7])).joined .and,
    (Node.group [.fragment "c IN (?, ?)" (.array [.enum "A"])]).joined .or]

theorem totals_differ_by_surplus_fragments :
    compileUnfiltered .postgres 1 surplusExample =
        .ok ⟨"a = $1 AND b < $2 OR ( c IN ($3, $4) )", [.int 7, .string "A"], 4⟩ ∧
      surplusAll surplusExample = 2 ∧ (4 : Nat) ≠ [Value.int 7, .string "A"].length := by
  have compiled : compileUnfiltered .postgres 1 surplusExample =
      .ok ⟨"a = $1 AND b < $2 OR ( c IN ($3, $4) )", [.int 7, .string "A"], 4⟩ := rfl
  have tooMany : ∀ n ∈ walkAll surplusExample, 0 ≤ n.surplus := by decide
  obtain ⟨difference, -, seen⟩ := totals_differ_by_surplus compiled
  refine ⟨compiled, difference.symm, seen ⟨_, .here List.mem_cons_self, ?_⟩ (.inl ?_)⟩
  · exact Node.balanced_iff_surplus.not.mpr (by decide)
  · exact fun n reached => tooMany n ((mem_walkAll_iff _).mpr reached)

/-- A question mark without a value, and a value without a question mark. -/
def cancellingExample : List Node :=
  [.fragment "a = ?" (.array []), (Node.fragment "b = 1" (.array [.int 5])).joined .and]

/-- Two fragments that err to different sides: their rendering has one placeholder and one
value.  It is not so that every fragment out of step shows in the totals. -/
theorem cancelling_fragments_unseen :
    compileUnfiltered .question 64 cancellingExample = .ok ⟨"a = ? AND b = 1", [.int 5], 1⟩ ∧
      (∀ n ∈ cancellingExample, ¬ n.Balanced) ∧
      ¬ ∀ (dialect : Dialect) (limit : Nat) (nodes : List Node) (c : Compiled),
        compileUnfiltered dialect limit nodes = .ok c →
          (∃ n, Reached n nodes ∧ ¬ n.Balanced) → c.placeholders ≠ c.params.length := by
  have compiled : compileUnfiltered .question 64 cancellingExample =
      .ok ⟨"a = ? AND b = 1", [.int 5], 1⟩ := rfl
  have outOfStep : ∀ n ∈ cancellingExample, ¬ n.Balanced := by
    simp only [cancellingExample, List.forall_mem_cons, Node.balanced_iff_surplus]
    decide
  refine ⟨compiled, outOfStep, fun seen => ?_⟩
  exact seen _ _ _ _ compiled
    ⟨_, .here List.mem_cons_self, outOfStep _ List.mem_cons_self⟩ rfl

end Criteria
