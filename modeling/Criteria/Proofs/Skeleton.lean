/-
# Criteria.Proofs.Skeleton -- the text of a tree reads as the tree

Of a forest that the builders make without fragments (`Regular`), the SQL text says
everything but the bound values.  `skeletonAll` is what it says: the same grouping and
order, the joiners, keys and tests, with the placeholders numbered as they come and
memberships with the items to be seen.

`spells_emitAll` goes along the emission and finds it to be the written skeleton;
reading it back is then `readCondition_charsAll`.
-/
import Criteria.Compile
import Criteria.Proofs.ConditionReading
import Criteria.Proofs.Emitting

namespace Criteria

set_option autoImplicit false

/-! ## Regular forests -/

/-- No fragments; keys that were read, and no children but in groups; and a joiner on
every node but the first of its list. -/
inductive Regular : List Node → Prop where
  | nil : Regular []
  | leaf {n : Node} {rest : List Node} {s : String} {p : Path} :
      n.predicate ≠ .group → n.predicate ≠ .fragment → Path.parse s = .ok p → n.key = .path p →
      n.children = [] → (∀ m ∈ rest, m.conjunction ≠ .none) → Regular rest → Regular (n :: rest)
  | group {n : Node} {rest : List Node} :
      n.predicate = .group → Regular n.children → (∀ m ∈ rest, m.conjunction ≠ .none) →
      Regular rest → Regular (n :: rest)

theorem Thinned.conjunction {ctx : Context} {nodes left : List Node}
    (thinned : Thinned ctx nodes left) :
    ∀ m ∈ left, ∃ n ∈ nodes, m.conjunction = n.conjunction := by
  induction thinned with
  | nil => simp
  | drop _ ih =>
      intro m member
      obtain ⟨n, inRest, same⟩ := ih m member
      exact ⟨n, List.mem_cons_of_mem _ inRest, same⟩
  | @keep n v below rest left _ _ _ _ ih =>
      intro m member
      rcases List.mem_cons.mp member with rfl | inLeft
      · exact ⟨n, List.mem_cons_self, rfl⟩
      · obtain ⟨n, inRest, same⟩ := ih m inLeft
        exact ⟨n, List.mem_cons_of_mem _ inRest, same⟩

/-- What is left of a regular forest is regular. -/
theorem Regular.thinned {ctx : Context} {nodes left : List Node}
    (thinned : Thinned ctx nodes left) : Regular nodes → Regular left := by
  induction thinned with
  | nil => exact id
  | drop _ ih =>
      intro regular
      cases regular with
      | leaf _ _ _ _ _ _ rest => exact ih rest
      | group _ _ _ rest => exact ih rest
  | keep _ below after inner ih =>
      intro regular
      have joined : ∀ rest : List Node, (∀ m ∈ rest, m.conjunction ≠ .none) → ∀ left,
          Thinned ctx rest left → ∀ m ∈ left, m.conjunction ≠ .none := by
        intro rest joined left after m member
        obtain ⟨n, inRest, same⟩ := after.conjunction m member
        rw [same]
        exact joined n inRest
      cases regular with
      | leaf group fragment read key empty joins rest =>
          rw [empty] at below
          cases below
          exact .leaf group fragment read key rfl (joined _ joins _ after) (ih rest)
      | group group children joins rest =>
          exact .group group (inner children) (joined _ joins _ after) (ih rest)

/-! ## The skeleton -/

mutual

/-- The comparisons of a node, itself or in its groups. -/
def Node.comparisons : Node → Nat
  | ⟨_, _, predicate, _, children⟩ =>
      match predicate with
      | .compare _ => 1
      | .group => comparisonsAll children
      | _ => 0

def comparisonsAll : List Node → Nat
  | [] => 0
  | n :: rest => n.comparisons + comparisonsAll rest

end

mutual

/-- The clause of a node behind `count` comparisons; a fragment has none. -/
def skeletonNode (dialect : Dialect) (count : Nat) (leading : Bool) : Node → List Clause
  | ⟨conjunction, key, predicate, v, children⟩ =>
      let joiner := if leading then .none else conjunction
      match predicate with
      | .compare op =>
          [.plain joiner key.text.toList (.compare op (dialect.placeholder (count + 1)))]
      | .member negated => [.plain joiner key.text.toList (.member negated (shownItems v.members))]
      | .nullCheck negated => [.plain joiner key.text.toList (.nullCheck negated)]
      | .group => [.group joiner (skeletonAll dialect count true children)]
      | .fragment => []

/-- The clauses of a list of nodes; the first one has no joiner when it is leading. -/
def skeletonAll (dialect : Dialect) (count : Nat) (leading : Bool) : List Node → List Clause
  | [] => []
  | n :: rest =>
      skeletonNode dialect count leading n ++ skeletonAll dialect (count + n.comparisons) false rest

end

/-! ## The emission spells the skeleton -/

theorem isWord_text {s : String} {p : Path} (read : Path.parse s = .ok p) :
    IsWord p.text.toList := by
  have name : ∀ {text : List Char}, Path.isName text = true → IsWord text := by
    intro text isName
    rw [Path.isName, Bool.and_eq_true, Bool.not_eq_true'] at isName
    exact isWord_of_all (List.isEmpty_eq_false_iff.mp isName.1) isName.2 (by decide)
  obtain ⟨field, qualifier⟩ := Path.isName_of_parse read
  rw [Path.text]
  cases found : p.qualifier with
  | none => exact name field
  | some alias_ =>
      obtain ⟨_, front⟩ := name (qualifier alias_ found)
      obtain ⟨_, back⟩ := name field
      simp only [String.toList_append]
      refine ⟨by simp, fun c member => ?_⟩
      rcases List.mem_append.mp member with inFront | inField
      · rcases List.mem_append.mp inFront with inAlias | point
        · exact front c inAlias
        · rw [List.mem_singleton.mp point]
          rfl
      · exact back c inField

theorem placeholder_legible (dialect : Dialect) (index : Nat) :
    IsWord (dialect.placeholder index) ∧ isPlaceholder (dialect.placeholder index) = true := by
  cases dialect with
  | question =>
      show IsWord ['?'] ∧ isPlaceholder ['?'] = true
      exact ⟨by decide, rfl⟩
  | postgres =>
      have digits : (Nat.toDigits 10 index).all Char.isDigit = true := by
        rw [List.all_eq_true]
        exact fun c member => Nat.isDigit_of_mem_toDigits (by decide) (by decide) member
      have some_ : (Nat.toDigits 10 index).isEmpty = false := by
        rw [List.isEmpty_eq_false_iff]
        exact Nat.toDigits_ne_nil
      refine ⟨⟨List.cons_ne_nil _ _, fun c member => ?_⟩, ?_⟩
      · rcases List.mem_cons.mp member with rfl | digit
        · rfl
        · exact isDelimiter_eq_false (List.all_eq_true.mp digits c digit) (by decide)
      · rw [Dialect.placeholder, isPlaceholder, digits, some_]
        rfl

/-- The tokens, with their placeholders counted after `count`, are how the clauses are
written, and the clauses are legible. -/
structure Spells (dialect : Dialect) (count : Nat) (tokens : List Token) (clauses : List Clause)
    (holes : Nat) : Prop where
  text : fill dialect count (layOut tokens) = Clause.charsAll clauses
  holes_eq : (layOut tokens).count .hole = holes
  legible : Clause.Legible clauses

theorem Spells.cons {dialect : Dialect} {count holes more : Nat} {tokens after : List Token}
    {c : Clause} {rest : List Clause} (first : Spells dialect count tokens [c] holes)
    (joined : ∀ d ∈ rest, d.joiner ≠ .none)
    (others : Spells dialect (count + holes) after rest more) :
    Spells dialect count (tokens ++ after) (c :: rest) (holes + more) where
  text := by
    have alone := first.text
    rw [Clause.charsAll, Clause.charsAll, beside_nil_right] at alone
    rw [layOut_append, fill_beside, first.holes_eq, others.text, alone, Clause.charsAll]
  holes_eq := by
    rw [layOut_append, count_hole_beside, first.holes_eq, others.holes_eq]
  legible := by
    cases first.legible with
    | plain word test _ _ => exact .plain word test joined others.legible
    | group led inner _ _ => exact .group led inner joined others.legible

/-- The tokens of a key and a test, behind a joiner. -/
theorem spells_plain {dialect : Dialect} {count : Nat} {joiner : Conjunction} {key : String}
    {tokens : List Token} {test : Test} {holes : Nat} (word : IsWord key.toList)
    (legible : test.Legible) (text : fill dialect count (layOut tokens) = test.chars)
    (holes_eq : (layOut tokens).count .hole = holes) :
    Spells dialect count (.joiner joiner :: .key key :: tokens)
      [.plain joiner key.toList test] holes where
  text := by
    simp only [layOut, Token.pieces, fill_beside, fill_map_char, count_hole_map_char, Nat.add_zero,
      text, Clause.charsAll, Clause.bodyChars, Clause.joiner, beside_nil_right]
  holes_eq := by
    simp only [layOut, Token.pieces, count_hole_beside, count_hole_map_char, Nat.zero_add, holes_eq]
  legible := .plain word legible (by simp) .nil

/-- The tokens of a group, behind a joiner. -/
theorem spells_group {dialect : Dialect} {count : Nat} {joiner : Conjunction}
    {tokens : List Token} {clauses : List Clause} {holes : Nat}
    (inner : Spells dialect count tokens clauses holes)
    (led : clauses.head?.map Clause.joiner = some .none) :
    Spells dialect count (.joiner joiner :: .openGroup :: (tokens ++ [.closeGroup]))
      [.group joiner clauses] holes where
  text := by
    have parenthesis : ∀ (c : Char) k, fill dialect k [.char c] = [c] := fun _ _ => rfl
    have no_hole : ([.char '('] : List Piece).count .hole = 0 := rfl
    simp only [layOut, layOut_append, Token.pieces, fill_beside, fill_map_char,
      count_hole_map_char, no_hole, Nat.add_zero, inner.text, parenthesis, beside_nil_right,
      Clause.charsAll, Clause.bodyChars, Clause.joiner]
  holes_eq := by
    simp only [layOut, layOut_append, Token.pieces, count_hole_beside, count_hole_map_char,
      inner.holes_eq, beside_nil_right]
    exact (Nat.zero_add _).trans (Nat.zero_add _)
  legible := .group led inner.legible (by simp) .nil

theorem joiner_of_mem_skeletonNode {dialect : Dialect} {count : Nat} {leading : Bool} {n : Node}
    {c : Clause} (member : c ∈ skeletonNode dialect count leading n) :
    c.joiner = if leading then .none else n.conjunction := by
  obtain ⟨conjunction, key, predicate, v, children⟩ := n
  cases predicate <;> simp only [skeletonNode, List.mem_singleton, List.not_mem_nil] at member <;>
    rw [member] <;> rfl

theorem joiner_of_mem_skeletonAll {dialect : Dialect} {nodes : List Node}
    (joined : ∀ m ∈ nodes, m.conjunction ≠ .none) :
    ∀ {count : Nat}, ∀ c ∈ skeletonAll dialect count false nodes, c.joiner ≠ .none := by
  induction nodes with
  | nil => simp [skeletonAll]
  | cons n rest ih =>
      intro count c member
      rw [skeletonAll] at member
      rcases List.mem_append.mp member with ofFirst | ofRest
      · rw [joiner_of_mem_skeletonNode ofFirst]
        exact joined n List.mem_cons_self
      · exact ih (fun m inRest => joined m (List.mem_cons_of_mem _ inRest)) c ofRest

/-- The clauses of a regular group begin with one that has no joiner. -/
theorem skeletonAll_led {dialect : Dialect} {count : Nat} {nodes : List Node}
    (regular : Regular nodes) (some_ : nodes ≠ []) :
    (skeletonAll dialect count true nodes).head?.map Clause.joiner = some .none := by
  cases regular with
  | nil => exact absurd rfl some_
  | @leaf n rest s p group fragment _ _ _ _ _ =>
      obtain ⟨conjunction, key, predicate, v, children⟩ := n
      cases predicate with
      | group => exact absurd rfl group
      | fragment => exact absurd rfl fragment
      | _ => rfl
  | @group n rest group _ _ _ =>
      obtain ⟨conjunction, key, predicate, v, children⟩ := n
      cases group
      rfl

theorem spells_emitNode_leaf {dialect : Dialect} {limit depth count : Nat} {leading : Bool}
    {n : Node} (word : IsWord n.key.text.toList) (group : n.predicate ≠ .group)
    (fragment : n.predicate ≠ .fragment) (speaks : n.Says)
    (whole : (emitNode limit depth leading n).failure = none) :
    ∃ c, skeletonNode dialect count leading n = [c] ∧
      Spells dialect count (emitNode limit depth leading n).written [c] n.comparisons := by
  obtain ⟨conjunction, key, predicate, v, children⟩ := n
  cases predicate with
  | group => exact absurd rfl group
  | fragment => exact absurd rfl fragment
  | compare op =>
      have present : v.isNull = false := speaks
      refine ⟨_, rfl, ?_⟩
      rw [emitNode, Emitted.followedBy_written rfl, present, if_neg Bool.false_ne_true]
      refine spells_plain word (placeholder_legible dialect (count + 1)) ?_ ?_
      · show fill dialect count (layOut [.operator (.compare op), .hole]) = _
        simp only [layOut, Token.pieces, fill_beside, fill_map_char, count_hole_map_char,
          Nat.add_zero, beside_nil_right, fill, List.append_nil]
        rfl
      · show (layOut [.operator (.compare op), .hole]).count .hole = 1
        simp only [layOut, Token.pieces, count_hole_beside, count_hole_map_char, beside_nil_right]
        rfl
  | member negated =>
      rw [emitNode, Emitted.followedBy_failure_eq_none] at whole
      obtain ⟨ls, found, written⟩ := literals_of_emitMembership whole.2
      obtain ⟨shown, legible⟩ := literals_items found
      refine ⟨_, rfl, ?_⟩
      rw [emitNode, Emitted.followedBy_written rfl, written]
      refine spells_plain word legible ?_ ?_
      · rw [Test.chars, ← shown, listChars_map_item]
        simp only [layOut, Token.pieces, fill_beside, fill_map_char, beside_nil_right]
      · simp only [layOut, Token.pieces, count_hole_beside, count_hole_map_char, beside_nil_right]
        rfl
  | nullCheck negated =>
      refine ⟨_, rfl, ?_⟩
      rw [emitNode, Emitted.followedBy_written rfl]
      refine spells_plain word trivial ?_ ?_
      · simp only [layOut, Token.pieces, fill_map_char, beside_nil_right]
        rfl
      · simp only [layOut, Token.pieces, count_hole_map_char, beside_nil_right]
        rfl

theorem spells_emitNode_group {dialect : Dialect} {limit depth count : Nat} {leading : Bool}
    {n : Node} (group : n.predicate = .group) (regular : Regular n.children) (speaks : n.Says)
    (inner : (emitAll limit (depth + 1) true n.children).failure = none →
      Spells dialect count (emitAll limit (depth + 1) true n.children).written
        (skeletonAll dialect count true n.children) (comparisonsAll n.children))
    (whole : (emitNode limit depth leading n).failure = none) :
    ∃ c, skeletonNode dialect count leading n = [c] ∧
      Spells dialect count (emitNode limit depth leading n).written [c] n.comparisons := by
  obtain ⟨conjunction, key, predicate, v, children⟩ := n
  cases group
  have some_ : children ≠ [] := speaks
  by_cases beyond : limit < depth + 1
  · simp [emitNode, beyond] at whole
  · simp only [emitNode, if_neg beyond, Emitted.followedBy_failure_eq_none] at whole
    obtain ⟨-, ⟨-, within⟩, -⟩ := whole
    refine ⟨_, rfl, ?_⟩
    have opened : ((Emitted.of [Token.openGroup]).followedBy
        (emitAll limit (depth + 1) true children)).failure = none :=
      Emitted.followedBy_failure_eq_none.mpr ⟨rfl, within⟩
    simp only [emitNode, if_neg beyond]
    rw [Emitted.followedBy_written rfl, Emitted.followedBy_written opened,
      Emitted.followedBy_written rfl]
    exact spells_group (inner within) (skeletonAll_led regular some_)

/-- **Writing a regular forest in which every node says something spells its skeleton.** -/
theorem spells_emitAll (dialect : Dialect) (limit : Nat) (nodes : List Node) :
    ∀ depth leading count, Regular nodes → Settled nodes →
      (emitAll limit depth leading nodes).failure = none →
      Spells dialect count (emitAll limit depth leading nodes).written
        (skeletonAll dialect count leading nodes) (comparisonsAll nodes) := by
  -- `count` varies: the nodes after the first go on behind its comparisons.
  induction nodes using forest_induction with
  | nil =>
      intro depth leading count _ _ _
      rw [emitAll, skeletonAll, comparisonsAll]
      exact ⟨rfl, rfl, .nil⟩
  | cons n rest inner after =>
      intro depth leading count regular settled whole
      cases settled with
      | cons speaks below others =>
          rw [emitAll, isEmptyGroup_of_says speaks, if_neg Bool.false_ne_true] at whole ⊢
          rw [Emitted.followedBy_failure_eq_none] at whole
          have joined : ∀ m ∈ rest, m.conjunction ≠ .none := by
            cases regular <;> assumption
          have regularRest : Regular rest := by
            cases regular <;> assumption
          have one : ∃ c, skeletonNode dialect count leading n = [c] ∧
              Spells dialect count (emitNode limit depth leading n).written [c] n.comparisons := by
            cases regular with
            | @leaf _ _ s p group fragment read key _ _ _ =>
                have word : IsWord n.key.text.toList := by
                  rw [key]
                  exact isWord_text read
                exact spells_emitNode_leaf word group fragment speaks whole.1
            | group group children _ _ =>
                exact spells_emitNode_group group children speaks
                  (inner (depth + 1) true count children below) whole.1
          obtain ⟨c, clause, first⟩ := one
          rw [Emitted.followedBy_written whole.1, skeletonAll, clause, comparisonsAll]
          exact first.cons (joiner_of_mem_skeletonAll joined)
            (after depth false (count + n.comparisons) regularRest others whole.2)

/-! ## The theorem -/

theorem skeletonAll_joined_none (dialect : Dialect) (count : Nat) (n : Node) (rest : List Node) :
    skeletonAll dialect count false (n.joined .none :: rest) =
      skeletonAll dialect count true (n.joined .none :: rest) := by
  obtain ⟨conjunction, key, predicate, v, children⟩ := n
  cases predicate <;> rfl

theorem Regular.joined {n : Node} {rest : List Node} (regular : Regular (n :: rest))
    (conjunction : Conjunction) : Regular (n.joined conjunction :: rest) := by
  cases regular with
  | leaf group fragment read key empty joins rest =>
      exact .leaf group fragment read key empty joins rest
  | group group children joins rest => exact .group group children joins rest

/-- **The text of a tree reads as the tree.**  When a regular forest compiles and
something is left of it, its text is the written skeleton of what is left, and SQL reads
that skeleton from it. -/
theorem readCondition_compile {ctx : Context} {dialect : Dialect} {nodes left : List Node}
    {c : Compiled} (regular : Regular nodes) (compiled : compile ctx dialect nodes = (left, .ok c))
    (some_ : left ≠ []) :
    c.sql.toList = Clause.charsAll (skeletonAll dialect 0 true left) ∧
      readCondition c.sql.toList = some (skeletonAll dialect 0 true left) := by
  obtain ⟨filtered, rfl, rendered⟩ := compile_eq_ok_iff.mp compiled
  obtain ⟨_, written, rfl⟩ := compileUnfiltered_eq_ok_iff.mp rendered
  have regularLeft := Regular.thinned (filterAll_thinned ctx nodes 0) regular
  have settled := (leaves_of_whole filtered).settled
  change Regular (filter ctx nodes).nodes at regularLeft
  change Settled (filter ctx nodes).nodes at settled
  clear compiled rendered
  generalize (filter ctx nodes).nodes = remaining at *
  cases remaining with
  | nil => exact absurd rfl some_
  | cons n rest =>
      have regularFirst := regularLeft.joined .none
      have spelled := spells_emitAll dialect ctx.limit (n.joined .none :: rest) 0 false 0
        regularFirst (settled.joined .none) written
      rw [skeletonAll_joined_none] at spelled
      have text : (String.ofList (fill dialect 0
          (layOut (emit ctx.limit (n.joined .none :: rest)).written))).toList =
            Clause.charsAll (skeletonAll dialect 0 true (n.joined .none :: rest)) := by
        rw [String.toList_ofList]
        exact spelled.text
      refine ⟨text, ?_⟩
      rw [dropFirstConjunction, text]
      exact Clause.readCondition_charsAll spelled.legible
        (skeletonAll_led regularFirst (List.cons_ne_nil _ _))

/-- Fields that are named like words of SQL. -/
def keywordContext : Context where
  catalog := Schema.catalog ⟨[⟨"t", [⟨"AND", .integer, true⟩, ⟨"IN", .text, false⟩]⟩]⟩
  primary := "t"
  aliases := []
  coercion := .epochMillis
  limit := 4

/-- The first condition goes, and an item of the list is written like SQL. -/
def keywordExample : List Node :=
  [.ofPath ⟨none, "AND"⟩ (.compare .eq) (.int 0),
    (Node.group [.ofPath ⟨none, "IS"⟩ (.nullCheck false) .null,
      (Node.ofPath ⟨none, "IN"⟩ (.member false) (.string "') AND (")).joined .or]).joined .or,
    (Node.ofPath ⟨some "t", "AND"⟩ (.compare .lt) (.int 5)).joined .and]

theorem regular_keywordExample : Regular keywordExample := by
  have inner : Regular [Node.ofPath ⟨none, "IS"⟩ (.nullCheck false) .null,
      (Node.ofPath ⟨none, "IN"⟩ (.member false) (.string "') AND (")).joined .or] :=
    .leaf (by decide) (by decide) (show Path.parse "IS" = _ from rfl) rfl rfl
      (by simp [Node.joined])
      (.leaf (by decide) (by decide) (show Path.parse "IN" = _ from rfl) rfl rfl (by simp) .nil)
  refine .leaf (by decide) (by decide) (show Path.parse "AND" = _ from rfl) rfl rfl
    (by simp [Node.joined]) ?_
  refine .group rfl inner (by simp [Node.joined]) ?_
  exact .leaf (by decide) (by decide) (show Path.parse "t.AND" = _ from rfl) rfl rfl (by simp) .nil

theorem compile_keywordExample :
    compile keywordContext .postgres keywordExample =
      (dropFirstConjunction keywordExample.tail,
        .ok ⟨"( IS IS NULL OR IN IN ( ''') AND (' ) ) AND t.AND < $1", [.int 5], 1⟩) :=
  rfl

theorem readCondition_compile_keywords :
    readCondition "( IS IS NULL OR IN IN ( ''') AND (' ) ) AND t.AND < $1".toList =
      some [.group .none
          [.plain .none "IS".toList (.nullCheck false),
            .plain .or "IN".toList (.member false [.quoted "') AND (".toList])],
        .plain .and "t.AND".toList (.compare .lt "$1".toList)] := by
  have skeleton : skeletonAll .postgres 0 true (dropFirstConjunction keywordExample.tail) =
      [.group .none
          [.plain .none "IS".toList (.nullCheck false),
            .plain .or "IN".toList (.member false [.quoted "') AND (".toList])],
        .plain .and "t.AND".toList (.compare .lt "$1".toList)] := rfl
  rw [← skeleton]
  exact (readCondition_compile regular_keywordExample compile_keywordExample
    (List.cons_ne_nil _ _)).2

end Criteria
