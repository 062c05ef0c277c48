/-
# Criteria.Proofs.EmptyGroups -- groups that are collected and not written

Collecting goes down into every group and asks of each that it does not stand too deep;
that is all it can fail at (`bindAll_failure_eq_none_iff`).  Writing passes over a group
without children before it asks.  So a list that is written is collected as well when its
empty groups stand within the limit, and only then (`collected_of_written`).

Filtering leaves no empty group, and what it leaves is collected whenever it is written.
-/
import Criteria.Proofs.Emitting
import Criteria.Proofs.NormalForm
import Criteria.Writer

namespace Criteria

set_option autoImplicit false

/-! ## Groups with and without children -/

/-- A group has children or it has none. -/
theorem kindWithin_group_iff {limit depth : Nat} {nodes : List Node} :
    KindWithin (·.predicate = .group) limit depth nodes ↔
      KindWithin (fun n => n.predicate = .group ∧ n.children ≠ []) limit depth nodes ∧
        KindWithin (·.isEmptyGroup = true) limit depth nodes := by
  constructor
  · intro within
    constructor
    · intro address n found full
      exact within address n found full.1
    · intro address n found empty
      rw [Node.isEmptyGroup, Bool.and_eq_true, decide_eq_true_eq] at empty
      exact within address n found empty.1
  · rintro ⟨full, empty⟩ address n found group
    by_cases children : n.children = []
    · exact empty address n found (by simp [Node.isEmptyGroup, group, children])
    · exact full address n found ⟨group, children⟩

/-- **In what is written all groups with children stand within the limit.** -/
theorem kindWithin_of_emitAll (limit : Nat) (nodes : List Node) :
    ∀ depth leading, (emitAll limit depth leading nodes).failure = none →
      KindWithin (fun n => n.predicate = .group ∧ n.children ≠ []) limit depth nodes := by
  induction nodes using forest_induction with
  | nil => exact fun depth _ _ => kindWithin_nil _ limit depth
  | cons n rest inner after =>
      intro depth leading written
      rw [emitAll] at written
      by_cases empty : n.isEmptyGroup = true
      · rw [if_pos empty] at written
        rw [Node.isEmptyGroup, Bool.and_eq_true, List.isEmpty_iff] at empty
        apply kindWithin_cons_iff.mpr
        refine ⟨?_, ?_, after depth leading written⟩
        · intro full
          exact absurd empty.2 full.2
        · intro _
          rw [empty.2]
          exact kindWithin_nil _ limit (depth + 1)
      · rw [if_neg empty, Emitted.followedBy_failure_eq_none, emitNode_failure] at written
        obtain ⟨body, behind⟩ := written
        apply kindWithin_cons_iff.mpr
        refine ⟨?_, ?_, after depth false behind⟩
        · intro full
          exact within_of_emitBody_group full.1 body
        · intro group
          exact inner (depth + 1) true (emitBody_group_written group body).1

/-- A forest in which every node says something has no empty group. -/
theorem Settled.kindWithin {nodes : List Node} (settled : Settled nodes) (limit : Nat) :
    ∀ depth, KindWithin (·.isEmptyGroup = true) limit depth nodes := by
  induction settled with
  | nil => exact kindWithin_nil _ limit
  | cons speaks _ _ inner after =>
      intro depth
      have full := isEmptyGroup_of_says speaks
      apply kindWithin_cons_iff.mpr
      refine ⟨?_, fun _ => inner (depth + 1), after depth⟩
      intro empty
      rw [full] at empty
      cases empty

theorem bindings_failure_of_emit {limit : Nat} {nodes : List Node}
    (written : (emit limit nodes).failure = none) :
    (bindings limit nodes).failure = none ↔
      KindWithin (·.isEmptyGroup = true) limit 0 nodes := by
  have full := kindWithin_of_emitAll limit nodes 0 false written
  rw [bindings, bindAll_failure_eq_none_iff, kindWithin_group_iff]
  exact and_iff_right full

/-! ## The theorem -/

/-- The empty groups of a forest stand within the limit. -/
def EmptyWithin (limit : Nat) (nodes : List Node) : Prop :=
  ∀ address n, nodeAt? nodes address = some n → n.isEmptyGroup = true → address.length ≤ limit

theorem emptyWithin_iff {limit : Nat} {nodes : List Node} :
    EmptyWithin limit nodes ↔ KindWithin (·.isEmptyGroup = true) limit 0 nodes := by
  simp only [EmptyWithin, KindWithin, Nat.zero_add]

/-- What a writer has written, a collector under the same limit collects as far as the empty
groups stand within the limit. -/
theorem collect_failure_of_written {w : Writer} {c : Collector} (limits : c.limit = w.limit)
    {nodes : List Node} (written : (w.write nodes).2 = none) :
    ((c.collect nodes).2 = none ↔ EmptyWithin w.limit nodes) ∧
      ((c.collect nodes).2 = none ∨ (c.collect nodes).2 = some (.nestingTooDeep w.limit)) := by
  rw [Writer.write_failure] at written
  rw [Collector.collect_failure, limits, emptyWithin_iff]
  exact ⟨bindings_failure_of_emit written, bindAll_failure_cases w.limit nodes 0⟩

/-- **What is written is collected, but for empty groups that stand too deep.**  When a list
is written without a fault, it is collected under the same limit exactly when its empty
groups stand within the limit, and the only fault is that of the nesting.  What filtering
leaves is collected whenever it is written. -/
theorem collected_of_written (nodes : List Node) :
    (∀ (w : Writer) (c : Collector), c.limit = w.limit → (w.write nodes).2 = none →
        ((c.collect nodes).2 = none ↔ EmptyWithin w.limit nodes) ∧
          ((c.collect nodes).2 = none ∨ (c.collect nodes).2 = some (.nestingTooDeep w.limit))) ∧
      (∀ (w : Writer) (c : Collector) ctx, c.limit = w.limit →
        (filter ctx nodes).failure = none → (w.write (filter ctx nodes).nodes).2 = none →
          (c.collect (filter ctx nodes).nodes).2 = none) ∧
      ∀ dialect text, render dialect nodes = .ok text →
        ((∃ values, flatten nodes = .ok values) ↔ EmptyWithin defaultLimit nodes) ∧
          ((∃ values, flatten nodes = .ok values) ∨
            flatten nodes = .error (.nestingTooDeep defaultLimit)) := by
  refine ⟨fun w c limits written => collect_failure_of_written limits written, ?_, ?_⟩
  · intro w c ctx limits whole written
    apply (collect_failure_of_written limits written).1.mpr
    apply emptyWithin_iff.mpr
    exact (leaves_of_whole whole).settled.kindWithin w.limit 0
  · intro dialect text rendered
    have written := exists_render_eq_ok_iff.mp ⟨text, rendered⟩
    rw [exists_flatten_eq_ok_iff, flatten_eq_error_iff]
    exact @collect_failure_of_written _ (Collector.blank defaultLimit) rfl _ written

/-- An empty group behind a condition in a group. -/
def emptyGroupExample : List Node :=
  [.group [.ofPath ⟨none, "id"⟩ (.compare .eq) (.int 5), (Node.group []).joined .and]]

theorem emptyWithin_emptyGroupExample (limit : Nat) :
    EmptyWithin limit emptyGroupExample ↔ 2 ≤ limit := by
  simp [emptyWithin_iff, emptyGroupExample, kindWithin_cons_iff, kindWithin_nil, Node.group,
    Node.ofPath, Node.joined, Node.isEmptyGroup]

/-- It is written under one level, and two are needed to collect it.  Filtering takes the
empty group out, and one level is enough for what is left. -/
theorem collected_of_written_nested :
    (((Writer.blank .postgres 2).write emptyGroupExample).2 = none ∧
        ((Collector.blank 2).collect emptyGroupExample).2 = none) ∧
      (((Writer.blank .postgres 1).write emptyGroupExample).2 = none ∧
        ((Collector.blank 1).collect emptyGroupExample).2 = some (.nestingTooDeep 1)) ∧
      ((filter (userSchema.context "users" [] 2) emptyGroupExample).failure = none ∧
        ((Writer.blank .postgres 1).write
          (filter (userSchema.context "users" [] 2) emptyGroupExample).nodes).2 = none ∧
        ((Collector.blank 1).collect
          (filter (userSchema.context "users" [] 2) emptyGroupExample).nodes).2 = none) ∧
      (render .postgres emptyGroupExample = .ok "( id = $1 )" ∧
        ∃ values, flatten emptyGroupExample = .ok values) := by
  have shallow : ¬ EmptyWithin 1 emptyGroupExample := by
    rw [emptyWithin_emptyGroupExample]
    decide
  have rendered : render .postgres emptyGroupExample = .ok "( id = $1 )" := rfl
  have filtered : (filter (userSchema.context "users" [] 2) emptyGroupExample).failure = none := rfl
  have left : ((Writer.blank .postgres 1).write
      (filter (userSchema.context "users" [] 2) emptyGroupExample).nodes).2 = none := rfl
  obtain ⟨levels, whole, texts⟩ := collected_of_written emptyGroupExample
  refine ⟨⟨rfl, ?_⟩, ⟨rfl, ?_⟩, ⟨filtered, left, ?_⟩, rendered, ?_⟩
  · apply (levels (.blank .postgres 2) (.blank 2) rfl rfl).1.mpr
    exact (emptyWithin_emptyGroupExample 2).mpr (Nat.le_refl 2)
  · have either := levels (.blank .postgres 1) (.blank 1) rfl rfl
    exact either.2.resolve_left fun collected => shallow (either.1.mp collected)
  · exact whole _ (.blank 1) _ rfl filtered left
  · apply (texts _ _ rendered).1.mpr
    exact (emptyWithin_emptyGroupExample defaultLimit).mpr (by decide)

/-! ## Empty groups that stand too deep -/

/-- An empty group in so many groups. -/
def emptyBelow : Nat → List Node
  | 0 => [.group []]
  | times + 1 => [.group (emptyBelow times)]

theorem emitAll_emptyBelow (times : Nat) : ∀ depth leading,
    (emitAll (depth + times) depth leading (emptyBelow times)).failure = none := by
  induction times with
  | zero => exact fun _ _ => rfl
  | succ times ih =>
      intro depth leading
      have speaks : Node.Says (.group (emptyBelow times)) := by
        cases times <;> exact List.cons_ne_nil _ _
      have within : depth + 1 ≤ depth + (times + 1) := by omega
      have deeper : depth + (times + 1) = depth + 1 + times := by omega
      rw [emptyBelow, emitAll_cons_failure speaks, emitBody_group_failure rfl within, deeper]
      exact Option.or_eq_none_iff.mpr ⟨ih (depth + 1) true, rfl⟩

theorem bindAll_emptyBelow (times : Nat) : ∀ depth,
    (bindAll (depth + times) depth (emptyBelow times)).failure =
      some (.nestingTooDeep (depth + times)) := by
  induction times with
  | zero =>
      intro depth
      rw [emptyBelow, bindAll, bindNode_of_group rfl, Nat.add_zero,
        if_pos (Nat.lt_succ_self depth)]
      rfl
  | succ times ih =>
      intro depth
      have within : ¬ depth + (times + 1) < depth + 1 := by omega
      have deeper : depth + (times + 1) = depth + 1 + times := by omega
      rw [emptyBelow, bindAll, bindNode_of_group rfl, if_neg within, deeper,
        Emitted.followedBy_failure]
      exact Option.or_eq_some_iff.mpr (.inl (ih (depth + 1)))

theorem exists_render_emptyBelow (dialect : Dialect) :
    ∃ text, render dialect (emptyBelow defaultLimit) = .ok text := by
  have written := emitAll_emptyBelow defaultLimit 0 false
  rw [Nat.zero_add] at written
  rw [exists_render_eq_ok_iff, Writer.write_failure]
  exact written

theorem flatten_emptyBelow :
    flatten (emptyBelow defaultLimit) = .error (.nestingTooDeep defaultLimit) := by
  have ended := bindAll_emptyBelow defaultLimit 0
  rw [Nat.zero_add] at ended
  rw [flatten_eq_error_iff, Collector.collect_failure]
  exact ended

/-- Where no level is allowed, an empty group is written and not collected; and so is one in
as many groups as the default limit allows. -/
theorem written_not_collected :
    ((Writer.blank .question 0).write (emptyBelow 0)).2 = none ∧
      ((Collector.blank 0).collect (emptyBelow 0)).2 = some (.nestingTooDeep 0) ∧
      (∃ text, render .question (emptyBelow 64) = .ok text) ∧
      flatten (emptyBelow 64) = .error (.nestingTooDeep 64) :=
  ⟨rfl, rfl, exists_render_emptyBelow .question, flatten_emptyBelow⟩

end Criteria
