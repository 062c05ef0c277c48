/-
# Criteria.Proofs.Independence -- bound values and text do not meet

Two walks go over a tree, and each looks at its own part of it.  The text is made of the
conjunctions, the keys, the predicates and the items of memberships; of a comparison's
value it only shows whether there is one.  The bound values are those of comparisons and
fragments, and neither keys nor conjunctions have a say in them.

`SameWording` tells two forests that differ in nothing that is written, `SameBinding` two
that differ in nothing that is bound.  A writer cannot tell the one pair apart, a collector
not the other, also when a fault ends the walk (`writing_and_binding_independent`).
-/
import Criteria.Proofs.Emitting
import Criteria.Writer

namespace Criteria

set_option autoImplicit false

/-! ## What is written -/

/-- The two nodes differ in nothing that either writes by itself. -/
structure Node.SameWords (n m : Node) : Prop where
  conjunction : n.conjunction = m.conjunction
  key : n.key = m.key
  predicate : n.predicate = m.predicate
  items : n.predicate.isMembership = true → n.value = m.value
  presence : n.predicate.isComparison = true → n.value.isNull = m.value.isNull

/-- Forests of one shape, as far as groups reach, with the same words at each place. -/
inductive SameWording : List Node → List Node → Prop where
  | nil : SameWording [] []
  | cons {n m : Node} {rest others : List Node} :
      n.SameWords m → (n.predicate = .group → SameWording n.children m.children) →
      SameWording rest others → SameWording (n :: rest) (m :: others)

theorem SameWording.isEmpty {nodes others : List Node} (same : SameWording nodes others) :
    nodes.isEmpty = others.isEmpty := by
  cases same <;> rfl

/-- Either both nodes are groups without children, or neither is. -/
theorem isEmptyGroup_of_sameWords {n m : Node} (same : n.SameWords m)
    (below : n.predicate = .group → SameWording n.children m.children) :
    n.isEmptyGroup = m.isEmptyGroup := by
  unfold Node.isEmptyGroup
  rw [← same.predicate]
  by_cases group : n.predicate = .group
  · rw [(below group).isEmpty]
  · simp [group]

theorem emitBody_of_sameWords {limit depth : Nat} {n m : Node} (same : n.SameWords m)
    (inner : n.predicate = .group →
      emitAll limit (depth + 1) true n.children = emitAll limit (depth + 1) true m.children) :
    emitBody limit depth n = emitBody limit depth m := by
  unfold emitBody
  rw [← same.predicate, ← same.key]
  cases predicate : n.predicate with
  | group => simp only [inner predicate]
  | member negated => simp only [same.items (by rw [predicate]; rfl)]
  | compare op => simp only [same.presence (by rw [predicate]; rfl)]
  | _ => rfl

/-- **Forests with the same wording are written alike**, fault included. -/
theorem emitAll_of_sameWording {limit : Nat} {nodes others : List Node}
    (same : SameWording nodes others) :
    ∀ depth leading, emitAll limit depth leading nodes = emitAll limit depth leading others := by
  induction same with
  | nil => exact fun _ _ => rfl
  | @cons n m rest others words below _ inner after =>
      intro depth leading
      have body : emitBody limit depth n = emitBody limit depth m :=
        emitBody_of_sameWords words fun group => inner group (depth + 1) true
      have first : emitNode limit depth leading n = emitNode limit depth leading m := by
        rw [emitNode_eq, emitNode_eq, body, words.conjunction]
      rw [emitAll, emitAll, isEmptyGroup_of_sameWords words below, first, after, after]

/-! ## What is bound -/

/-- The two nodes differ in nothing that either binds by itself. -/
structure Node.SameValue (n m : Node) : Prop where
  predicate : n.predicate = m.predicate
  compared : n.predicate.isComparison = true → n.value = m.value
  inserted : n.predicate = .fragment → n.value = m.value

/-- Forests of one shape, as far as groups reach, with the same bound value at each
place. -/
inductive SameBinding : List Node → List Node → Prop where
  | nil : SameBinding [] []
  | cons {n m : Node} {rest others : List Node} :
      n.SameValue m → (n.predicate = .group → SameBinding n.children m.children) →
      SameBinding rest others → SameBinding (n :: rest) (m :: others)

theorem bindNode_of_sameValue {limit depth : Nat} {n m : Node} (same : n.SameValue m)
    (inner : n.predicate = .group →
      bindAll limit (depth + 1) n.children = bindAll limit (depth + 1) m.children) :
    bindNode limit depth n = bindNode limit depth m := by
  obtain ⟨conjunction, key, predicate, v, children⟩ := n
  obtain ⟨conjunction', key', predicate', v', children'⟩ := m
  obtain ⟨equal, compared, inserted⟩ := same
  dsimp only at equal
  subst equal
  cases predicate with
  | group =>
      have below : bindAll limit (depth + 1) children = bindAll limit (depth + 1) children' :=
        inner rfl
      rw [bindNode, bindNode, below]
  | compare op =>
      obtain rfl : v = v' := compared rfl
      rw [bindNode, bindNode]
  | fragment =>
      obtain rfl : v = v' := inserted rfl
      simp only [bindNode]
  | _ => rw [bindNode, bindNode]

/-- **Forests with the same binding bind alike**, fault included. -/
theorem bindAll_of_sameBinding {limit : Nat} {nodes others : List Node}
    (same : SameBinding nodes others) :
    ∀ depth, bindAll limit depth nodes = bindAll limit depth others := by
  induction same with
  | nil => exact fun _ => rfl
  | @cons n m rest others value _ _ inner after =>
      intro depth
      have first : bindNode limit depth n = bindNode limit depth m :=
        bindNode_of_sameValue value fun group => inner group (depth + 1)
      rw [bindAll, bindAll, first, after]

/-! ## The theorem -/

/-- **The text does not depend on what is bound, nor the bound values on what is
written.**  From any state a writer leaves the same text, count and fault for two forests
with the same wording, and a collector the same values and fault for two with the same
binding. -/
theorem writing_and_binding_independent :
    (∀ nodes others : List Node, SameWording nodes others →
      ∀ w : Writer, w.write nodes = w.write others) ∧
    ∀ nodes others : List Node, SameBinding nodes others →
      ∀ c : Collector, c.collect nodes = c.collect others := by
  constructor
  · intro nodes others same w
    have emitted : emit w.limit nodes = emit w.limit others := emitAll_of_sameWording same 0 false
    rw [Writer.write, Writer.write, emitted]
  · intro nodes others same c
    have bound : bindings c.limit nodes = bindings c.limit others := bindAll_of_sameBinding same 0
    rw [Collector.collect, Collector.collect, bound]

/-- A search for a name, in which the name and the rank are bound and the list of states is
written.  The last list cannot be, so the writing ends there. -/
def searchForm (name rank : Value) (hidden : List Node) : List Node :=
  [⟨.none, .path ⟨none, "name"⟩, .compare .eq, name, hidden⟩,
    ⟨.and, .none, .group, rank,
      [⟨.or, .raw "rank > ?", .fragment, rank, hidden⟩,
        ⟨.and, .path ⟨none, "state"⟩, .member false, .array [.string "on", .string "it's"], []⟩,
        ⟨.or, .path ⟨none, "gone"⟩, .nullCheck false, name, []⟩,
        ⟨.or, .path ⟨none, "kind"⟩, .member true, .array [.int 1, .string "x"], []⟩]⟩]

theorem sameWording_searchForm {name name' : Value} (rank rank' : Value)
    (hidden hidden' : List Node) (presence : name.isNull = name'.isNull) :
    SameWording (searchForm name rank hidden) (searchForm name' rank' hidden') := by
  have plain : ∀ {n m : Node}, n.conjunction = m.conjunction → n.key = m.key →
      n.predicate = m.predicate → n.predicate.isMembership = false →
      n.predicate.isComparison = false → n.SameWords m := by
    intro n m conjunction key predicate noList noComparison
    exact ⟨conjunction, key, predicate, by simp [noList], by simp [noComparison]⟩
  refine .cons ⟨rfl, rfl, rfl, by simp [Predicate.isMembership], fun _ => presence⟩ (by simp) ?_
  refine .cons (plain rfl rfl rfl rfl rfl) (fun _ => ?_) .nil
  refine .cons (plain rfl rfl rfl rfl rfl) (by simp) ?_
  refine .cons ⟨rfl, rfl, rfl, fun _ => rfl, by simp [Predicate.isComparison]⟩ (by simp) ?_
  refine .cons (plain rfl rfl rfl rfl rfl) (by simp) ?_
  exact .cons ⟨rfl, rfl, rfl, fun _ => rfl, by simp [Predicate.isComparison]⟩ (by simp) .nil

/-- The same values in a tree with other keys, conjunctions and lists. -/
def otherForm (name rank : Value) : List Node :=
  [⟨.or, .raw "title", .compare .eq, name, []⟩,
    ⟨.none, .none, .group, .null,
      [⟨.none, .path ⟨some "a", "b"⟩, .fragment, rank, []⟩,
        ⟨.or, .none, .member false, .null, []⟩,
        ⟨.and, .path ⟨none, "left"⟩, .nullCheck false, .bool true, []⟩,
        ⟨.none, .raw "kind", .member true, .array [], []⟩]⟩]

theorem sameBinding_otherForm (name rank : Value) :
    SameBinding (searchForm name rank []) (otherForm name rank) := by
  refine .cons ⟨rfl, fun _ => rfl, by simp⟩ (by simp) ?_
  refine .cons ⟨rfl, by simp [Predicate.isComparison], by simp⟩ (fun _ => ?_) .nil
  refine .cons ⟨rfl, by simp [Predicate.isComparison], fun _ => rfl⟩ (by simp) ?_
  refine .cons ⟨rfl, by simp [Predicate.isComparison], by simp⟩ (by simp) ?_
  refine .cons ⟨rfl, by simp [Predicate.isComparison], by simp⟩ (by simp) ?_
  exact .cons ⟨rfl, by simp [Predicate.isComparison], by simp⟩ (by simp) .nil

/-- What a writer leaves of the search. -/
def searchWritten : Writer × Option Fault :=
  (⟨.postgres, 2,
      "name = $1 AND ( rank > $2 AND state IN ( 'on', 'it''s' ) OR gone IS NULL OR".toList, 2⟩,
    some (.mixedMembership "kind" (some .plain) .string))

/-- A hostile name and a harmless one leave the same text and the same fault; other keys
leave the same values. -/
theorem writing_and_binding_independent_search :
    (Writer.blank .postgres 2).write
          (searchForm (.string "'; drop table t") (.array [.int 3]) [.group []]) = searchWritten ∧
      (Writer.blank .postgres 2).write (searchForm (.int 7) .null []) = searchWritten ∧
      (Collector.blank 2).collect (searchForm (.enum "ANN") (.array [.int 3, .enum "BIG"]) []) =
        (⟨2, [.string "ANN", .int 3, .string "BIG"]⟩, none) ∧
      (Collector.blank 2).collect (otherForm (.enum "ANN") (.array [.int 3, .enum "BIG"])) =
        (⟨2, [.string "ANN", .int 3, .string "BIG"]⟩, none) := by
  have hostile : (Writer.blank .postgres 2).write
      (searchForm (.string "'; drop table t") (.array [.int 3]) [.group []]) = searchWritten := rfl
  have bound : (Collector.blank 2).collect
      (searchForm (.enum "ANN") (.array [.int 3, .enum "BIG"]) []) =
        (⟨2, [.string "ANN", .int 3, .string "BIG"]⟩, none) := rfl
  refine ⟨hostile, ?_, bound, ?_⟩
  · have alike : SameWording (searchForm (.string "'; drop table t") (.array [.int 3]) [.group []])
        (searchForm (.int 7) .null []) := sameWording_searchForm _ _ _ _ rfl
    rw [← writing_and_binding_independent.1 _ _ alike]
    exact hostile
  · rw [← writing_and_binding_independent.2 _ _ (sameBinding_otherForm _ _)]
    exact bound

end Criteria
