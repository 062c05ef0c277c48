/-
# Criteria.Proofs.RenderedConditions -- which conditions reach the text

A rendering walks into groups only (`walkAll`).  Of what filtering leaves, each node on
that walk writes its own words once, in the order of the walk, and binds its own values;
besides words there are only joiners and parentheses (`Rendered`).  In particular each
comparison has one placeholder and one value.

A tree may have more nodes than the walk comes to: `everyAll` lists them all, as
`Node.countAll` counts them.  The conditions below a node that is no group are filtered but
never written.  So the text has as many conditions as the tree exactly when there are none
(`conditions_rendered_of_compile`); a tree read from JSON may have some
(`compile_hiddenCondition`).
-/
import Criteria.Proofs.Alignment
import Criteria.Proofs.Emitting
import Criteria.Proofs.NormalForm
import Criteria.Proofs.Reloading

namespace Criteria

set_option autoImplicit false

/-! ## The nodes of a tree -/

/-- A comparison, a membership or a null check. -/
def Node.isCondition (n : Node) : Bool :=
  n.predicate.isComparison || n.predicate.isMembership || n.predicate.isNullCheck

mutual

/-- A node and the nodes below it that a rendering comes to. -/
def Node.walk : Node → List Node
  | ⟨conjunction, key, predicate, v, children⟩ =>
      ⟨conjunction, key, predicate, v, children⟩ ::
        if predicate = .group then walkAll children else []

def walkAll : List Node → List Node
  | [] => []
  | n :: rest => n.walk ++ walkAll rest

end

theorem walkAll_cons_group {n : Node} (group : n.predicate = .group) (rest : List Node) :
    walkAll (n :: rest) = n :: (walkAll n.children ++ walkAll rest) := by
  obtain ⟨conjunction, key, predicate, v, children⟩ := n
  cases group
  rfl

theorem walkAll_cons_plain {n : Node} (plain : n.predicate ≠ .group) (rest : List Node) :
    walkAll (n :: rest) = n :: walkAll rest := by
  obtain ⟨conjunction, key, predicate, v, children⟩ := n
  rw [walkAll, Node.walk, if_neg plain]
  rfl

/-- The walk comes to the nodes that are reached through groups. -/
theorem mem_walkAll_iff {n : Node} (nodes : List Node) : n ∈ walkAll nodes ↔ Reached n nodes := by
  induction nodes using forest_induction with
  | nil => simp [walkAll]
  | cons first rest inner after =>
      rw [reached_cons_iff]
      by_cases group : first.predicate = .group
      · rw [walkAll_cons_group group, List.mem_cons, List.mem_append, inner, after]
        simp only [group, true_and]
      · rw [walkAll_cons_plain group, List.mem_cons, after]
        simp only [group, false_and, false_or]

/-- No condition stands below a node that is no group. -/
def Unhidden (nodes : List Node) : Prop :=
  ∀ n, Reached n nodes → n.predicate ≠ .group → ∀ m ∈ everyAll n.children, m.isCondition = false

theorem walkAll_sublist (nodes : List Node) : (walkAll nodes).Sublist (everyAll nodes) := by
  induction nodes using forest_induction with
  | nil => exact .slnil
  | cons n rest inner after =>
      rw [everyAll_cons]
      by_cases group : n.predicate = .group
      · rw [walkAll_cons_group group]
        exact (inner.append after).cons_cons n
      · rw [walkAll_cons_plain group]
        exact (after.trans (List.sublist_append_right _ _)).cons_cons n

theorem countP_walkAll_eq_iff (nodes : List Node) :
    (walkAll nodes).countP Node.isCondition = (everyAll nodes).countP Node.isCondition ↔
      Unhidden nodes := by
  induction nodes using forest_induction with
  | nil => exact ⟨fun _ => by simp [Unhidden], fun _ => rfl⟩
  | cons n rest inner after =>
      have belowLe := (walkAll_sublist n.children).countP_le (p := Node.isCondition)
      have restLe := (walkAll_sublist rest).countP_le (p := Node.isCondition)
      have parts : Unhidden (n :: rest) ↔
          (n.predicate ≠ .group → ∀ m ∈ everyAll n.children, m.isCondition = false) ∧
            (n.predicate = .group → Unhidden n.children) ∧ Unhidden rest :=
        forall_reached_cons_iff
      rw [parts, everyAll_cons, List.countP_cons, List.countP_append, ← after]
      -- Below a group the walk goes on, below any other node it misses what is there.
      by_cases group : n.predicate = .group
      · rw [walkAll_cons_group group, List.countP_cons, List.countP_append]
        simp only [group, ne_eq, not_true_eq_false, false_imp_iff, true_and, forall_const,
          ← inner]
        omega
      · have clear : (everyAll n.children).countP Node.isCondition = 0 ↔
            ∀ m ∈ everyAll n.children, m.isCondition = false := by
          rw [List.countP_eq_zero]
          simp
        rw [walkAll_cons_plain group, List.countP_cons]
        simp only [group, ne_eq, not_false_eq_true, forall_const, false_imp_iff, true_and, ← clear]
        omega

/-- **The walk comes to all conditions exactly when none is hidden.** -/
theorem filter_walkAll_eq_iff (nodes : List Node) :
    (walkAll nodes).filter Node.isCondition = (everyAll nodes).filter Node.isCondition ↔
      Unhidden nodes := by
  rw [← countP_walkAll_eq_iff, List.countP_eq_length_filter, List.countP_eq_length_filter]
  exact ⟨congrArg List.length, ((walkAll_sublist nodes).filter Node.isCondition).eq_of_length⟩

/-! ## Words -/

namespace Token

/-- The token says something by itself: it is no joiner and no parenthesis. -/
def isWord : Token → Bool
  | .joiner _ => false
  | .openGroup => false
  | .closeGroup => false
  | _ => true

def isKey : Token → Bool
  | .key _ => true
  | _ => false

def isHole : Token → Bool
  | .hole => true
  | _ => false

theorem isWord_of_isKey {t : Token} (key : t.isKey = true) : t.isWord = true := by
  cases t <;> first | rfl | cases key

theorem isWord_of_isHole {t : Token} (hole : t.isHole = true) : t.isWord = true := by
  cases t <;> first | rfl | cases hole

end Token

/-- The words of a node: of a condition its key, its sign and what it is held against. -/
def Node.words (n : Node) : List Token :=
  match n.predicate with
  | .compare _ => [.key n.key.text, .operator n.predicate, .hole]
  | .member _ =>
      [.key n.key.text, .operator n.predicate,
        .list ((literals n.key.text n.value.members).toOption.getD [])]
  | .nullCheck _ => [.key n.key.text, .operator n.predicate]
  | .fragment => [.fragment n.key.text]
  | .group => []

/-- The values that a node binds by itself. -/
def Node.binds (n : Node) : List Value :=
  match n.predicate with
  | .compare _ => [n.value.toBind]
  | .fragment =>
      match n.value with
      | .array items => items.map Value.toBind
      | _ => []
  | _ => []

/-- A condition has one key among its words, and other nodes have none. -/
theorem countP_isKey_words (n : Node) :
    n.words.countP Token.isKey = if n.isCondition then 1 else 0 := by
  unfold Node.words Node.isCondition
  cases n.predicate <;> rfl

/-- A comparison has one hole among its words, and other nodes have none. -/
theorem countP_isHole_words (n : Node) :
    n.words.countP Token.isHole = if n.predicate.isComparison then 1 else 0 := by
  unfold Node.words
  cases n.predicate <;> rfl

/-- Words of which some nodes have one and others none are as many as those nodes. -/
theorem countP_flatMap_words {counts : Token → Bool} {has : Node → Bool}
    (one : ∀ n : Node, n.words.countP counts = if has n then 1 else 0) (nodes : List Node) :
    (nodes.flatMap Node.words).countP counts = nodes.countP has := by
  induction nodes with
  | nil => rfl
  | cons n rest ih =>
      rw [List.flatMap_cons, List.countP_append, ih, one, List.countP_cons, Nat.add_comm]

theorem countP_filter_isWord {counts : Token → Bool} (worded : ∀ t, counts t → t.isWord)
    (tokens : List Token) : (tokens.filter Token.isWord).countP counts = tokens.countP counts := by
  rw [List.countP_filter]
  refine List.countP_congr fun t _ => ?_
  simpa using worded t

/-- A text has the holes of its tokens. -/
theorem count_hole_layOut (tokens : List Token) :
    (layOut tokens).count .hole = (tokens.flatMap Token.pieces).count .hole := by
  induction tokens with
  | nil => rfl
  | cons t rest ih => rw [layOut, count_hole_beside, ih, List.flatMap_cons, List.count_append]

/-- Only words ask for placeholders. -/
theorem count_hole_filter_isWord (tokens : List Token) :
    ((tokens.filter Token.isWord).flatMap Token.pieces).count .hole =
      (tokens.flatMap Token.pieces).count .hole := by
  induction tokens with
  | nil => rfl
  | cons t rest ih =>
      rw [List.flatMap_cons, List.count_append, ← ih]
      by_cases word : t.isWord = true
      · rw [List.filter_cons_of_pos word, List.flatMap_cons, List.count_append]
      · have none_ : t.pieces.count .hole = 0 := by
          rw [Token.count_hole_pieces]
          cases t <;> first | rfl | exact absurd rfl word
        rw [List.filter_cons_of_neg word, none_, Nat.zero_add]

/-- What a node that is no group writes behind its joiner are its words. -/
theorem emitBody_written_of_plain {limit depth : Nat} {n : Node} (plain : n.predicate ≠ .group)
    (speaks : n.Says) (whole : (emitBody limit depth n).failure = none) :
    (emitBody limit depth n).written = n.words := by
  cases predicate : n.predicate with
  | group => exact absurd predicate plain
  | member negated =>
      have list : n.predicate.isMembership = true := by rw [predicate]; rfl
      rw [emitBody_membership list] at whole ⊢
      obtain ⟨ls, found, written⟩ := literals_of_emitMembership whole
      rw [written]
      simp only [Node.words, predicate, found, Except.toOption, Option.getD_some]
  | compare op =>
      have present : n.value.isNull = false := by
        simpa only [Node.Says, predicate] using speaks
      simp [emitBody, Node.words, predicate, present]
  | _ => simp [emitBody, Node.words, predicate]

theorem filter_isWord_words (n : Node) : n.words.filter Token.isWord = n.words := by
  unfold Node.words
  cases n.predicate <;> rfl

/-- **The words of a text are those of the nodes on the walk**, each node's once and in the
order of the walk. -/
theorem filter_isWord_emitAll (limit : Nat) (nodes : List Node) :
    ∀ depth leading, Settled nodes → (emitAll limit depth leading nodes).failure = none →
      (emitAll limit depth leading nodes).written.filter Token.isWord =
        (walkAll nodes).flatMap Node.words := by
  induction nodes using forest_induction with
  | nil =>
      intro depth leading _ _
      rw [emitAll]
      rfl
  | cons n rest inner after =>
      intro depth leading settled whole
      obtain ⟨speaks, settledBelow, settledRest⟩ := settled.cases
      rw [emitAll_cons speaks, Emitted.followedBy_failure_eq_none] at whole
      obtain ⟨first, others⟩ := whole
      have joiner : ∀ c, (Token.joiner c).isWord = false := fun _ => rfl
      rw [emitAll_cons speaks, Emitted.followedBy_written first, emitNode_written,
        List.filter_append, List.filter_cons_of_neg (by simp [joiner]),
        after depth false settledRest others]
      rw [emitNode_failure] at first
      -- A group has no words of its own: its parentheses are none.
      by_cases group : n.predicate = .group
      · obtain ⟨below, written⟩ := emitBody_group_written group first
        have words : n.words = [] := by simp only [Node.words, group]
        have closes : [Token.closeGroup].filter Token.isWord = [] := rfl
        rw [written, List.filter_cons_of_neg Bool.false_ne_true, List.filter_append, closes,
          List.append_nil, inner (depth + 1) true settledBelow below, walkAll_cons_group group,
          List.flatMap_cons, words, List.nil_append, List.flatMap_append]
      · rw [emitBody_written_of_plain group speaks first, filter_isWord_words,
          walkAll_cons_plain group, List.flatMap_cons]

/-! ## Values -/

theorem bindNode_written_of_plain {limit depth : Nat} {n : Node} (plain : n.predicate ≠ .group)
    (speaks : n.Says) : (bindNode limit depth n).written = n.binds := by
  obtain ⟨conjunction, key, predicate, v, children⟩ := n
  cases predicate with
  | group => exact absurd rfl plain
  | compare op =>
      have present : v.isNull = false := speaks
      simp [bindNode, Node.binds, present]
  | fragment => cases v <;> rfl
  | _ => rfl

/-- A group binds what its children do. -/
theorem bindNode_group {limit depth : Nat} {n : Node} (group : n.predicate = .group)
    (whole : (bindNode limit depth n).failure = none) :
    bindNode limit depth n = bindAll limit (depth + 1) n.children := by
  rw [bindNode_of_group group] at whole ⊢
  split at whole
  · cases whole
  · rename_i within
    rw [if_neg within]

/-- **The bound values are those of the nodes on the walk.** -/
theorem bindAll_written (limit : Nat) (nodes : List Node) :
    ∀ depth, Settled nodes → (bindAll limit depth nodes).failure = none →
      (bindAll limit depth nodes).written = (walkAll nodes).flatMap Node.binds := by
  induction nodes using forest_induction with
  | nil => exact fun _ _ _ => rfl
  | cons n rest inner after =>
      intro depth settled whole
      obtain ⟨speaks, settledBelow, settledRest⟩ := settled.cases
      rw [bindAll, Emitted.followedBy_failure_eq_none] at whole
      obtain ⟨first, others⟩ := whole
      rw [bindAll, Emitted.followedBy_written first, after depth settledRest others]
      by_cases group : n.predicate = .group
      · have below : (bindAll limit (depth + 1) n.children).failure = none := by
          rw [← bindNode_group group first]
          exact first
        have own : n.binds = [] := by simp only [Node.binds, group]
        rw [bindNode_group group first, inner (depth + 1) settledBelow below,
          walkAll_cons_group group, List.flatMap_cons, own, List.nil_append, List.flatMap_append]
      · rw [bindNode_written_of_plain group speaks, walkAll_cons_plain group, List.flatMap_cons]

/-! ## The theorem -/

/-- What a compiled text has of the nodes of a tree: the words of its tokens, its values and
its placeholders are those of the nodes on the walk, once each. -/
structure Rendered (dialect : Dialect) (limit : Nat) (nodes : List Node) (c : Compiled) : Prop where
  text : c.sql.toList = fill dialect 0 (layOut (emit limit nodes).written)
  words : (emit limit nodes).written.filter Token.isWord = (walkAll nodes).flatMap Node.words
  params : c.params = (walkAll nodes).flatMap Node.binds
  placeholders : c.placeholders =
    (((walkAll nodes).flatMap Node.words).flatMap Token.pieces).count .hole
  keys : (emit limit nodes).written.countP Token.isKey = (walkAll nodes).countP Node.isCondition
  holes : (emit limit nodes).written.countP Token.isHole =
    (walkAll nodes).countP (·.predicate.isComparison)
  comparisons : ∀ n, Reached n nodes → n.predicate.isComparison →
    n.words = [.key n.key.text, .operator n.predicate, .hole] ∧ n.binds = [n.value.toBind]

theorem Settled.dropFirst {nodes : List Node} (settled : Settled nodes) :
    Settled (dropFirstConjunction nodes) := by
  cases nodes with
  | nil => exact .nil
  | cons n rest => exact settled.joined .none

theorem rendered_of_settled {dialect : Dialect} {limit : Nat} {nodes : List Node} {c : Compiled}
    (settled : Settled nodes) (compiled : compileUnfiltered dialect limit nodes = .ok c) :
    Rendered dialect limit nodes c := by
  obtain ⟨bound, written, rfl⟩ := compileUnfiltered_eq_ok_iff.mp compiled
  have words : (emit limit nodes).written.filter Token.isWord =
      (walkAll nodes).flatMap Node.words := filter_isWord_emitAll limit nodes 0 _ settled written
  refine
    { text := String.toList_ofList
      words
      params := bindAll_written limit nodes 0 settled bound
      placeholders := by rw [count_hole_layOut, ← words, count_hole_filter_isWord]
      keys := ?_
      holes := ?_
      comparisons := ?_ }
  · rw [← countP_filter_isWord (fun _ => Token.isWord_of_isKey), words,
      countP_flatMap_words countP_isKey_words]
  · rw [← countP_filter_isWord (fun _ => Token.isWord_of_isHole), words,
      countP_flatMap_words countP_isHole_words]
  · intro n _ comparison
    cases predicate : n.predicate with
    | compare op =>
        simp only [Node.words, Node.binds, predicate, and_self]
    | _ => simp [predicate, Predicate.isComparison] at comparison

/-- **Every condition on the walk is rendered once, and these are all the conditions of the
tree exactly when none is hidden.** -/
theorem conditions_rendered_of_compile {ctx : Context} {dialect : Dialect}
    {nodes left : List Node} {c : Compiled}
    (compiled : compile ctx dialect nodes = (left, .ok c)) :
    Rendered dialect ctx.limit left c ∧
      ((walkAll left).filter Node.isCondition = (everyAll left).filter Node.isCondition ↔
        Unhidden left) ∧
      ((emit ctx.limit left).written.countP Token.isKey =
        (everyAll left).countP Node.isCondition ↔ Unhidden left) := by
  obtain ⟨filtered, rfl, unfiltered⟩ := compile_eq_ok_iff.mp compiled
  have settled : Settled (filter ctx nodes).nodes := (leaves_of_whole filtered).settled
  have rendered := rendered_of_settled settled.dropFirst unfiltered
  refine ⟨rendered, filter_walkAll_eq_iff _, ?_⟩
  rw [rendered.keys]
  exact countP_walkAll_eq_iff _

/-- A group with a membership and a fragment. -/
def renderedExample : List Node :=
  [.ofPath ⟨none, "id"⟩ (.compare .gt) (.int 4),
    (Node.group [.ofPath ⟨none, "id"⟩ (.member false) (.array [.int 1, .int 2]),
      (Node.fragment "id % 2 = ?" (.array [.int 1])).joined .or]).joined .and]

theorem unhidden_renderedExample : Unhidden renderedExample := by
  simp only [Unhidden, renderedExample, Node.group, Node.joined, Node.fragment, Node.ofPath,
    forall_reached_cons_iff, not_reached_nil, false_imp_iff, implies_true, and_true]
  decide

theorem compile_renderedExample :
    compile (userSchema.context "users" [] 2) .postgres renderedExample =
      (renderedExample,
        .ok ⟨"id > $1 AND ( id IN ( 1, 2 ) OR id % 2 = $2 )", [.int 4, .int 1], 2⟩) :=
  rfl

theorem conditions_rendered_of_compile_users :
    (emit 2 renderedExample).written.countP Token.isKey =
        (everyAll renderedExample).countP Node.isCondition ∧
      (everyAll renderedExample).countP Node.isCondition = 2 :=
  ⟨(conditions_rendered_of_compile compile_renderedExample).2.2.mpr unhidden_renderedExample, rfl⟩

/-- A comparison below a comparison. -/
def hiddenCondition : List Node :=
  [⟨.none, .path ⟨none, "id"⟩, .compare .eq, .int 5,
    [(Node.ofPath ⟨none, "id"⟩ (.compare .gt) (.int 4)).joined .and]⟩]

/-- A text that says so. -/
def hiddenText : String :=
  "[\x7b\"conjunction\":\"NONE\",\"key\":\"id\",\"predicate\":\"EQ\",\"value\":5," ++
    "\"sub_list\":[\x7b\"conjunction\":\"AND\",\"key\":\"id\",\"predicate\":\"GT\",\"value\":4\x7d]\x7d]"

theorem parseAll_hiddenText : Node.parseAll hiddenText = .ok hiddenCondition := by
  have written : Node.serialize hiddenCondition = hiddenText := by decide +kernel
  have nodes : ∀ n ∈ everyAll hiddenCondition, n.value.Without .float ∧ n.Keyed := by
    intro n member
    simp only [hiddenCondition, everyAll, Node.every, Node.ofPath, Node.joined, List.append_nil,
      List.mem_cons, List.not_mem_nil, or_false] at member
    rcases member with rfl | rfl
    · exact ⟨.scalar (by decide) (by decide), .inr (.inr ⟨⟨none, "id"⟩, rfl⟩)⟩
    · exact ⟨.scalar (by decide) (by decide), .inr (.inr ⟨⟨none, "id"⟩, rfl⟩)⟩
  have floatless : ∀ n ∈ everyAll hiddenCondition, n.value.Without .float :=
    fun n member => (nodes n member).1
  have fits : Json.mostOpen 0 (Json.lexemes (Node.serialize hiddenCondition).toList) ≤ 127 := by
    rw [Node.mostOpen_serialize]
    decide
  rw [← written]
  exact (Node.parseAll_serialize_of_floatless floatless).mpr
    ⟨⟨fun n member => (nodes n member).2, fits⟩, rfl⟩

/-- **A condition below a comparison is filtered, and left, but not rendered.**  A tree that
was read has two comparisons and compiles to one. -/
theorem compile_hiddenCondition :
    Node.parseAll hiddenText = .ok hiddenCondition ∧
      compile (userSchema.context "users" [] 2) .question hiddenCondition =
        (hiddenCondition, .ok ⟨"id = ?", [.int 5], 1⟩) ∧
      (everyAll hiddenCondition).countP Node.isCondition = 2 ∧
      (emit 2 hiddenCondition).written.countP Token.isKey = 1 :=
  ⟨parseAll_hiddenText, rfl, rfl, rfl⟩

end Criteria
