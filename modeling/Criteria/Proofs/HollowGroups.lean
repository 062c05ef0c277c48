/-
# Criteria.Proofs.HollowGroups -- groups of nothing but groups

A group is hollow when there is no condition in it at any depth.  Writing passes over a group
without children and looks no deeper, so a hollow group of other groups is written as its
parentheses, with its joiner, and the condition behind it does not lead
(`hollowGroup_written`).

So taking the hollow groups out of a list (`solidAll`) leaves its text as it is exactly when
none that is reached has children, and otherwise a pair of parentheses is gone for each that
has (`writing_without_hollow_groups`).  The placeholders stay as they are.  Filtering drops all
hollow groups, and what it leaves is solid.
-/
import Criteria.Proofs.RenderedConditions

namespace Criteria

set_option autoImplicit false

/-! ## Hollow groups -/

/-- A group without a condition at any depth. -/
def Node.isHollow (n : Node) : Bool :=
  n.predicate = .group && (everyAll n.children).all (·.predicate = .group)

/-- A hollow group with children. -/
def Node.isShell (n : Node) : Bool :=
  n.isHollow && !n.children.isEmpty

/-- The children of a hollow group are hollow groups. -/
theorem Node.isHollow_iff {n : Node} :
    n.isHollow = true ↔ n.predicate = .group ∧ ∀ m ∈ n.children, m.isHollow = true := by
  have every : ∀ m : Node, m.isHollow = true ↔ ∀ o ∈ m.every, o.predicate = .group := by
    intro m
    obtain ⟨conjunction, key, predicate, v, children⟩ := m
    simp [Node.isHollow, Node.every]
  rw [every]
  obtain ⟨conjunction, key, predicate, v, children⟩ := n
  simp only [Node.every, List.forall_mem_cons, everyAll_eq_flatMap, List.forall_mem_flatMap, every]

theorem Node.isHollow_of_isEmptyGroup {n : Node} (empty : n.isEmptyGroup = true) :
    n.isHollow = true := by
  rw [Node.isEmptyGroup, Bool.and_eq_true, decide_eq_true_eq, List.isEmpty_iff] at empty
  rw [Node.isHollow_iff, empty.2]
  exact ⟨empty.1, fun m member => absurd member List.not_mem_nil⟩

theorem Node.isEmptyGroup_of_not_isHollow {n : Node} (solid : n.isHollow = false) :
    n.isEmptyGroup = false := by
  rw [← Bool.not_eq_true] at solid ⊢
  exact mt Node.isHollow_of_isEmptyGroup solid

mutual

/-- A node without the hollow groups below it. -/
def Node.solid : Node → Node
  | ⟨conjunction, key, predicate, v, children⟩ =>
      ⟨conjunction, key, predicate, v, solidAll children⟩

/-- A list without hollow groups, here and below. -/
def solidAll : List Node → List Node
  | [] => []
  | n :: rest => if n.isHollow then solidAll rest else n.solid :: solidAll rest

end

theorem Node.solid_eq (n : Node) : n.solid = { n with children := solidAll n.children } := by
  cases n
  rfl

theorem solidAll_eq_nil_iff {nodes : List Node} :
    solidAll nodes = [] ↔ ∀ n ∈ nodes, n.isHollow = true := by
  induction nodes with
  | nil => simp [solidAll]
  | cons n rest ih =>
      rw [solidAll, List.forall_mem_cons, ← ih]
      split <;> simp [*]

/-- What is left of a group that is not hollow is not empty. -/
theorem Node.isEmptyGroup_solid {n : Node} (solid : n.isHollow = false) :
    n.solid.isEmptyGroup = false := by
  by_cases group : n.predicate = .group
  · have some_ : solidAll n.children ≠ [] := by
      intro nothing
      rw [Node.isHollow_iff.mpr ⟨group, solidAll_eq_nil_iff.mp nothing⟩] at solid
      cases solid
    simp [Node.isEmptyGroup, Node.solid_eq, some_]
  · simp [Node.isEmptyGroup, Node.solid_eq, group]

/-! ## Where nothing is taken out -/

theorem emitBody_solid {limit depth : Nat} {n : Node}
    (inner : n.predicate = .group → emitAll limit (depth + 1) true (solidAll n.children) =
      emitAll limit (depth + 1) true n.children) :
    emitBody limit depth n.solid = emitBody limit depth n := by
  rw [Node.solid_eq]
  unfold emitBody
  cases predicate : n.predicate with
  | group => simp only [inner predicate]
  | _ => rfl

/-- **Without groups that have no children the same is written**, fault included. -/
theorem emitAll_solidAll (limit : Nat) (nodes : List Node) :
    (∀ n, Reached n nodes → n.isHollow = true → n.children = []) → ∀ depth leading,
      emitAll limit depth leading (solidAll nodes) = emitAll limit depth leading nodes := by
  induction nodes using forest_induction with
  | nil => exact fun _ _ _ => rfl
  | cons n rest inner after =>
      intro bare depth leading
      obtain ⟨own, below, behind⟩ := forall_reached_cons_iff.mp bare
      cases hollow : n.isHollow with
      | true =>
          have empty : n.isEmptyGroup = true := by
            simp [Node.isEmptyGroup, (Node.isHollow_iff.mp hollow).1, own hollow]
          rw [solidAll, if_pos hollow, emitAll.eq_def limit depth leading (n :: rest)]
          simp only [empty, if_true]
          exact after behind depth leading
      | false =>
          have body : emitBody limit depth n.solid = emitBody limit depth n :=
            emitBody_solid fun group => inner (below group) (depth + 1) true
          have first : emitNode limit depth leading n.solid = emitNode limit depth leading n := by
            rw [emitNode_eq, emitNode_eq, body, Node.solid_eq]
          rw [solidAll, hollow, if_neg Bool.false_ne_true, emitAll, emitAll,
            Node.isEmptyGroup_solid hollow, Node.isEmptyGroup_of_not_isHollow hollow, first,
            after behind depth false, if_neg Bool.false_ne_true, if_neg Bool.false_ne_true]

/-! ## What taking them out takes away -/

/-- How often a piece stands in the tokens of a text. -/
def tally (p : Piece) (tokens : List Token) : Nat :=
  (tokens.flatMap Token.pieces).count p

theorem tally_append (p : Piece) (before after : List Token) :
    tally p (before ++ after) = tally p before + tally p after := by
  rw [tally, List.flatMap_append, List.count_append]
  rfl

theorem tally_cons (p : Piece) (t : Token) (rest : List Token) :
    tally p (t :: rest) = tally p [t] + tally p rest :=
  tally_append p [t] rest

/-- How often it stands in a pair of parentheses. -/
def Piece.paired (p : Piece) : Nat :=
  tally p [.openGroup, .closeGroup]

/-- A group that is written has its parentheses and what its children have. -/
theorem tally_group {limit depth : Nat} {n : Node} (p : Piece) (group : n.predicate = .group)
    (whole : (emitBody limit depth n).failure = none) :
    tally p (emitBody limit depth n).written =
      tally p (emitAll limit (depth + 1) true n.children).written + p.paired := by
  have pair : p.paired = tally p [.openGroup] + tally p [.closeGroup] := tally_cons p _ _
  rw [(emitBody_group_written group whole).2, tally_cons, tally_append, pair]
  omega

/-- The tokens that say something by themselves. -/
def Emitted.words (e : Emitted Token) : List Token :=
  e.written.filter Token.isWord

/-- The parentheses of a group are no words. -/
theorem words_group {limit depth : Nat} {n : Node} (group : n.predicate = .group)
    (whole : (emitBody limit depth n).failure = none) :
    (emitBody limit depth n).words = (emitAll limit (depth + 1) true n.children).words := by
  have closes : [Token.closeGroup].filter Token.isWord = [] := rfl
  rw [Emitted.words, (emitBody_group_written group whole).2,
    List.filter_cons_of_neg Bool.false_ne_true, List.filter_append, closes, List.append_nil]
  rfl

/-- Nor is the joiner before it. -/
theorem words_emitNode (limit depth : Nat) (leading : Bool) (n : Node) :
    (emitNode limit depth leading n).words = (emitBody limit depth n).words := by
  rw [Emitted.words, emitNode_written]
  exact List.filter_cons_of_neg Bool.false_ne_true

/-- `thin` comes without a fault and has the words of `full`, and the piece as often but for some
pairs of parentheses. -/
structure Unwrapped (p : Piece) (pairs : Nat) (full thin : Emitted Token) : Prop where
  whole : thin.failure = none
  words : thin.words = full.words
  tallied : tally p full.written = tally p thin.written + pairs * p.paired

namespace Unwrapped

variable {p : Piece} {pairs : Nat}

theorem refl {e : Emitted Token} (whole : e.failure = none) : Unwrapped p 0 e e where
  whole
  words := rfl
  tallied := by rw [Nat.zero_mul, Nat.add_zero]

theorem followedBy {more : Nat} {full thin full' thin' : Emitted Token}
    (whole : full.failure = none) (first : Unwrapped p pairs full thin)
    (second : Unwrapped p more full' thin') :
    Unwrapped p (pairs + more) (full.followedBy full') (thin.followedBy thin') where
  whole := Emitted.followedBy_failure_eq_none.mpr ⟨first.whole, second.whole⟩
  words := by
    rw [Emitted.words, Emitted.words, Emitted.followedBy_written whole,
      Emitted.followedBy_written first.whole, List.filter_append, List.filter_append]
    exact congrArg₂ _ first.words second.words
  tallied := by
    rw [Emitted.followedBy_written whole, Emitted.followedBy_written first.whole, tally_append,
      tally_append, first.tallied, second.tallied, Nat.add_mul]
    omega

/-- A group that stays has its own parentheses still. -/
theorem group {limit depth : Nat} {n thin : Node} (group : n.predicate = .group)
    (same : thin.predicate = .group) (whole : (emitBody limit depth n).failure = none)
    (inner : Unwrapped p pairs (emitAll limit (depth + 1) true n.children)
      (emitAll limit (depth + 1) true thin.children)) :
    Unwrapped p pairs (emitBody limit depth n) (emitBody limit depth thin) := by
  have within : depth + 1 ≤ limit := within_of_emitBody_group group whole
  have kept : (emitBody limit depth thin).failure = none := by
    rw [emitBody_group_failure same within, inner.whole]
  refine ⟨kept, ?_, ?_⟩
  · rw [words_group group whole, words_group same kept, inner.words]
  · rw [tally_group p group whole, tally_group p same kept, inner.tallied]
    omega

/-- One that goes takes them with it, and its joiner. -/
theorem dropped (silent : ∀ c, tally p [.joiner c] = 0) {limit depth : Nat} {leading : Bool}
    {n : Node} (group : n.predicate = .group) (whole : (emitBody limit depth n).failure = none)
    (inner : Unwrapped p pairs (emitAll limit (depth + 1) true n.children) .nothing) :
    Unwrapped p (pairs + 1) (emitNode limit depth leading n) .nothing where
  whole := rfl
  words := by rw [words_emitNode, words_group group whole, inner.words]
  tallied := by
    rw [emitNode_written, tally_cons, silent, tally_group p group whole, inner.tallied]
    simp only [Nat.add_mul]
    omega

/-- Which joiner a node has does not matter. -/
theorem joined (silent : ∀ c, tally p [.joiner c] = 0) {limit depth : Nat} {n thin : Node}
    (leading leading' : Bool)
    (body : Unwrapped p pairs (emitBody limit depth n) (emitBody limit depth thin)) :
    Unwrapped p pairs (emitNode limit depth leading n) (emitNode limit depth leading' thin) where
  whole := by rw [emitNode_failure, body.whole]
  words := by rw [words_emitNode, words_emitNode, body.words]
  tallied := by
    rw [emitNode_written, emitNode_written, tally_cons, silent, tally_cons _ (.joiner _), silent,
      body.tallied]
    omega

end Unwrapped

theorem Node.walk_eq (n : Node) :
    n.walk = n :: if n.predicate = .group then walkAll n.children else [] := by
  cases n
  rfl

/-- Taking the hollow groups out of a list takes a pair of parentheses out of what is written for
each that has children, whichever of the two texts is led. -/
def Pruned (p : Piece) (limit depth : Nat) (nodes : List Node) : Prop :=
  ∀ leading leading', (emitAll limit depth leading nodes).failure = none →
    Unwrapped p ((walkAll nodes).countP Node.isShell) (emitAll limit depth leading nodes)
      (emitAll limit depth leading' (solidAll nodes))

variable {p : Piece} {limit depth : Nat} {n : Node}

/-- Of a node with a condition in it, what is below it is thinned out. -/
theorem unwrapped_solid (solid : n.isHollow = false)
    (whole : (emitBody limit depth n).failure = none)
    (inner : Pruned p limit (depth + 1) n.children) :
    Unwrapped p (n.walk.countP Node.isShell) (emitBody limit depth n)
      (emitBody limit depth n.solid) := by
  have shell : n.isShell = false := by rw [Node.isShell, solid, Bool.false_and]
  rw [Node.walk_eq, List.countP_cons, shell]
  by_cases group : n.predicate = .group
  · rw [if_pos group]
    have below := inner true true (emitBody_group_written group whole).1
    have same : n.solid.predicate = .group := by rw [Node.solid_eq, group]
    have children : n.solid.children = solidAll n.children := by rw [Node.solid_eq]
    rw [← children] at below
    exact below.group group same whole
  · rw [if_neg group, emitBody_solid fun other => absurd other group]
    exact .refl whole

/-- A hollow group with children is a pair of parentheses, and so are those below it. -/
theorem unwrapped_hollow (silent : ∀ c, tally p [.joiner c] = 0) {leading : Bool}
    (hollow : n.isHollow = true) (full : n.isEmptyGroup = false)
    (whole : (emitBody limit depth n).failure = none)
    (inner : Pruned p limit (depth + 1) n.children) :
    Unwrapped p (n.walk.countP Node.isShell) (emitNode limit depth leading n) .nothing := by
  obtain ⟨group, below⟩ := Node.isHollow_iff.mp hollow
  have shell : n.isShell = true := by
    simpa [Node.isShell, Node.isEmptyGroup, hollow, group] using full
  have inside := inner true true (emitBody_group_written group whole).1
  rw [solidAll_eq_nil_iff.mpr below] at inside
  rw [Node.walk_eq, if_pos group, List.countP_cons, if_pos shell]
  exact inside.dropped silent group whole

/-- A group without children is none. -/
theorem countP_walk_of_isEmptyGroup (empty : n.isEmptyGroup = true) :
    n.walk.countP Node.isShell = 0 := by
  obtain ⟨group, none_⟩ : n.predicate = .group ∧ n.children = [] := by
    simpa [Node.isEmptyGroup] using empty
  have shell : n.isShell = false := by simp [Node.isShell, none_]
  rw [Node.walk_eq, if_pos group, none_, List.countP_cons, shell]
  rfl

/-- **Each hollow group with children is a pair of parentheses**, and nothing else is taken
away. -/
theorem unwrapped_solidAll (silent : ∀ c, tally p [.joiner c] = 0) (limit : Nat)
    (nodes : List Node) : ∀ depth, Pruned p limit depth nodes := by
  induction nodes using forest_induction with
  | nil => exact fun _ _ _ _ => .refl rfl
  | cons n rest inner after =>
      intro depth leading leading' written
      rw [walkAll, List.countP_append]
      rw [emitAll] at written ⊢
      cases empty : n.isEmptyGroup with
      | true =>
          rw [if_pos empty] at written
          rw [if_pos rfl, solidAll, if_pos (Node.isHollow_of_isEmptyGroup empty),
            countP_walk_of_isEmptyGroup empty, Nat.zero_add]
          exact after depth leading leading' written
      | false =>
          rw [empty, if_neg Bool.false_ne_true, Emitted.followedBy_failure_eq_none] at written
          obtain ⟨first, others⟩ := written
          have body : (emitBody limit depth n).failure = none := by
            rw [← emitNode_failure limit depth leading, first]
          rw [if_neg Bool.false_ne_true, solidAll]
          cases hollow : n.isHollow with
          | true =>
              -- What is behind it leads now if it did.
              rw [if_pos rfl]
              exact (unwrapped_hollow silent hollow empty body (inner (depth + 1))).followedBy first
                (after depth false leading' others)
          | false =>
              rw [if_neg Bool.false_ne_true, emitAll, Node.isEmptyGroup_solid hollow,
                if_neg Bool.false_ne_true]
              have own := unwrapped_solid hollow body (inner (depth + 1))
              exact (own.joined silent leading leading').followedBy first
                (after depth false false others)

/-! ## Texts -/

theorem count_beside {α : Type} [BEq α] [LawfulBEq α] {blank x : α} (other : x ≠ blank)
    (before after : List α) :
    (beside blank before after).count x = before.count x + after.count x := by
  by_cases some_ : before = []
  · subst some_
    exact (Nat.zero_add _).symm
  by_cases more : after = []
  · subst more
    rw [beside_nil_right]
    rfl
  · rw [beside_of_ne_nil _ some_ more, List.count_append, List.count_cons_of_ne other.symm]

theorem count_layOut {p : Piece} (other : p ≠ .char ' ') (tokens : List Token) :
    (layOut tokens).count p = tally p tokens := by
  induction tokens with
  | nil => rfl
  | cons t rest ih =>
      rw [layOut, count_beside other, ih, tally, tally, List.flatMap_cons, List.count_append]

/-- Placeholders have no parentheses in them. -/
theorem not_mem_placeholder {c : Char} (parenthesis : c = '(' ∨ c = ')') (dialect : Dialect)
    (index : Nat) : c ∉ dialect.placeholder index := by
  have noDigit : c ∉ Nat.toDigits 10 index := by
    intro member
    have digit := Nat.isDigit_of_mem_toDigits (by decide) (by decide) member
    rcases parenthesis with rfl | rfl <;> cases digit
  cases dialect <;> rcases parenthesis with rfl | rfl <;> simp [Dialect.placeholder, noDigit]

theorem count_fill {c : Char} (parenthesis : c = '(' ∨ c = ')') (dialect : Dialect)
    (count : Nat) (pieces : List Piece) :
    (fill dialect count pieces).count c = pieces.count (.char c) := by
  induction pieces generalizing count with
  | nil => rfl
  | cons piece rest ih =>
      cases piece with
      | char own =>
          rw [fill, List.count_cons, List.count_cons, ih]
          simp
      | hole =>
          have none_ := List.count_eq_zero.mpr (not_mem_placeholder parenthesis dialect (count + 1))
          rw [fill, List.count_append, none_, ih, Nat.zero_add,
            List.count_cons_of_ne Piece.noConfusion]

/-- Writing adds as many parentheses to a text as the tokens of the tree have. -/
theorem count_write {c : Char} (parenthesis : c = '(' ∨ c = ')') (w : Writer)
    (nodes : List Node) :
    (w.write nodes).1.sql.count c =
      w.sql.count c + tally (.char c) (emit w.limit nodes).written := by
  have noBlank : c ≠ ' ' := by rcases parenthesis with rfl | rfl <;> decide
  have piece : Piece.char c ≠ .char ' ' := fun same => noBlank (Piece.char.inj same)
  rw [Writer.write, count_beside noBlank, count_fill parenthesis, count_layOut piece]

theorem placeholders_write (w : Writer) (nodes : List Node) :
    (w.write nodes).1.placeholders =
      w.placeholders + tally .hole (emit w.limit nodes).written := by
  rw [Writer.write, count_layOut Piece.noConfusion]

/-- `thin` holds the text of `full` but for so many pairs of parentheses. -/
structure Unwraps (pairs : Nat) (full thin : Writer) : Prop where
  placeholders : thin.placeholders = full.placeholders
  opening : full.sql.count '(' = thin.sql.count '(' + pairs
  closing : full.sql.count ')' = thin.sql.count ')' + pairs

theorem unwraps_write {w : Writer} {nodes : List Node} (written : (w.write nodes).2 = none) :
    (w.write (solidAll nodes)).2 = none ∧
      (emit w.limit (solidAll nodes)).words = (emit w.limit nodes).words ∧
      Unwraps ((walkAll nodes).countP Node.isShell) (w.write nodes).1
        (w.write (solidAll nodes)).1 := by
  rw [Writer.write_failure] at written ⊢
  have thinned : ∀ p : Piece, (∀ c, tally p [.joiner c] = 0) → Unwrapped p
      ((walkAll nodes).countP Node.isShell) (emit w.limit nodes) (emit w.limit (solidAll nodes)) :=
    fun p silent => unwrapped_solidAll silent w.limit nodes 0 false false written
  have holes := thinned .hole fun c => by cases c <;> rfl
  have opening := thinned (.char '(') fun c => by cases c <;> rfl
  have closing := thinned (.char ')') fun c => by cases c <;> rfl
  refine ⟨holes.whole, holes.words, ?_, ?_, ?_⟩
  · rw [placeholders_write, placeholders_write, holes.tallied]
    rfl
  · rw [count_write (.inl rfl), count_write (.inl rfl), opening.tallied, ← Nat.add_assoc]
    exact congrArg _ (Nat.mul_one _)
  · rw [count_write (.inr rfl), count_write (.inr rfl), closing.tallied, ← Nat.add_assoc]
    exact congrArg _ (Nat.mul_one _)

/-- All hollow groups that a rendering comes to are without children. -/
def Bare (nodes : List Node) : Prop :=
  ∀ n, Reached n nodes → n.isHollow = true → n.children = []

theorem bare_iff {nodes : List Node} :
    Bare nodes ↔ (walkAll nodes).countP Node.isShell = 0 := by
  rw [List.countP_eq_zero]
  simp [Bare, mem_walkAll_iff, Node.isShell]

/-- What filtering leaves has no hollow groups. -/
theorem Settled.solid {nodes : List Node} (settled : Settled nodes) :
    solidAll nodes = nodes ∧ ∀ n ∈ nodes, n.isHollow = false := by
  induction settled with
  | nil => exact ⟨rfl, nofun⟩
  | @cons n rest speaks below behind inner after =>
      have solid : n.isHollow = false := by
        rw [← Bool.not_eq_true, Node.isHollow_iff]
        rintro ⟨group, hollow⟩
        have some_ : n.children ≠ [] := by simpa only [Node.Says, group] using speaks
        obtain ⟨child, member⟩ := List.exists_mem_of_ne_nil _ some_
        have never := inner.2 child member
        rw [hollow child member] at never
        cases never
      refine ⟨?_, List.forall_mem_cons.mpr ⟨solid, after.2⟩⟩
      rw [solidAll, solid, if_neg Bool.false_ne_true, Node.solid_eq, inner.1, after.1]
      cases n
      rfl

/-! ## The theorem -/

/-- **Without its hollow groups a list has the same text but for their parentheses.**  Writing
the list without its hollow groups ends without a fault when writing the list does, with the
same words and as many placeholders, and the text lacks a pair of parentheses for each hollow
group with children that is reached; so it is the same text exactly when there are none.  What
filtering leaves has no hollow groups. -/
theorem writing_without_hollow_groups (nodes : List Node) :
    (∀ w : Writer, (w.write nodes).2 = none →
        (w.write (solidAll nodes)).2 = none ∧
          (emit w.limit (solidAll nodes)).words = (emit w.limit nodes).words ∧
          Unwraps ((walkAll nodes).countP Node.isShell) (w.write nodes).1
            (w.write (solidAll nodes)).1 ∧
          ((w.write (solidAll nodes)).1.sql = (w.write nodes).1.sql ↔ Bare nodes)) ∧
      ∀ ctx, (filter ctx nodes).failure = none →
        solidAll (filter ctx nodes).nodes = (filter ctx nodes).nodes := by
  refine ⟨fun w written => ?_, fun ctx whole => (leaves_of_whole whole).settled.solid.1⟩
  obtain ⟨whole, words, unwraps⟩ := unwraps_write written
  refine ⟨whole, words, unwraps, ?_, ?_⟩
  · intro same
    have opening := unwraps.opening
    rw [same] at opening
    exact bare_iff.mpr (by omega)
  · intro bare
    have same : emit w.limit (solidAll nodes) = emit w.limit nodes :=
      emitAll_solidAll w.limit nodes bare 0 false
    rw [Writer.write, Writer.write, same]

/-- A group without children before a condition, one that holds another behind it, and last a
group of two of those. -/
def hollowExample : List Node :=
  [.group [.group [], (Node.ofPath ⟨none, "id"⟩ (.compare .eq) (.int 5)).joined .and,
      (Node.group [.group []]).joined .or],
    (Node.group [.group [.group []], (Node.group []).joined .and]).joined .and]

/-- Behind what a writer has already, three pairs of parentheses are written for them; an empty
group in a group leaves no trace.  The text without the hollow groups is that with none. -/
theorem writing_without_hollow_groups_nested :
    (Writer.write ⟨.postgres, 3, "name = $1 AND".toList, 1⟩ hollowExample).2 = none ∧
      (Writer.write ⟨.postgres, 3, "name = $1 AND".toList, 1⟩ hollowExample).1.text =
        "name = $1 AND ( id = $2 OR ( ) ) AND ( ( ) )" ∧
      (Writer.write ⟨.postgres, 3, "name = $1 AND".toList, 1⟩ (solidAll hollowExample)).1.text =
        "name = $1 AND ( id = $2 )" ∧
      Unwraps 3 (Writer.write ⟨.postgres, 3, "name = $1 AND".toList, 1⟩ hollowExample).1
        (Writer.write ⟨.postgres, 3, "name = $1 AND".toList, 1⟩ (solidAll hollowExample)).1 ∧
      ¬ Bare hollowExample ∧
      solidAll (filter (userSchema.context "users" [] 3) hollowExample).nodes =
        (filter (userSchema.context "users" [] 3) hollowExample).nodes := by
  obtain ⟨texts, filtered⟩ := writing_without_hollow_groups hollowExample
  obtain ⟨-, -, unwraps, same⟩ := texts ⟨.postgres, 3, "name = $1 AND".toList, 1⟩ rfl
  refine ⟨rfl, rfl, rfl, unwraps, ?_, filtered _ rfl⟩
  rw [← same]
  decide +kernel

/-- **A group of an empty group is written**, as two parentheses and no placeholder.  Without
hollow groups the list is empty, and so is its text. -/
theorem hollowGroup_written :
    render .question [.group [.group []]] = .ok "( )" ∧
      compileUnfiltered .question defaultLimit [.group [.group []]] = .ok ⟨"( )", [], 0⟩ ∧
      solidAll [.group [.group []]] = [] ∧
      render .question (solidAll [.group [.group []]]) = .ok "" :=
  ⟨rfl, rfl, rfl, rfl⟩

end Criteria
