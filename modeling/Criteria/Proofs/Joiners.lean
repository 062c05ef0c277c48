/-
# Criteria.Proofs.Joiners -- what stands around the joiners of a text

The writer appends the tokens that are not empty (`shownTokens`).  They are `WellJoined`
when every joiner has something before it and behind it, in its own group, and all
parentheses have something in them.

For this every node but the first of its list may have a joiner, as long as it has text
behind it.  After filtering all nodes do but one kind: a fragment stays whatever its text
is, and blank text is not written (`compile_blankFragment`).  Where no fragment is blank
the text is well joined (`wellJoined_of_compile`).
-/
import Mathlib.Data.List.Chain
import Criteria.Compile
import Criteria.Proofs.Emitting
import Criteria.Proofs.NormalForm

namespace Criteria

set_option autoImplicit false

/-! ## Well joined tokens -/

namespace Token

/-- The writer appends the token. -/
def isShown (t : Token) : Bool :=
  !t.pieces.isEmpty

def isJoiner : Token → Bool
  | .joiner _ => true
  | _ => false

/-- In its group something has to stand behind the token. -/
def leads : Token → Bool
  | .joiner _ => true
  | .openGroup => true
  | _ => false

/-- In its group something has to stand before the token. -/
def trails : Token → Bool
  | .joiner _ => true
  | .closeGroup => true
  | _ => false

/-- The two may stand side by side. -/
def Meet (a b : Token) : Prop :=
  ¬ (a.leads = true ∧ b.trails = true)

theorem meet_of_leads {a b : Token} (quiet : a.leads = false) : a.Meet b := by
  rintro ⟨leads, -⟩
  cases quiet.symm.trans leads

theorem meet_of_trails {a b : Token} (quiet : b.trails = false) : a.Meet b := by
  rintro ⟨-, trails⟩
  cases quiet.symm.trans trails

theorem isShown_operator {p : Predicate} (fragment : p ≠ .fragment) (group : p ≠ .group) :
    (operator p).isShown = true := by
  rcases p with (_ | _ | _ | _ | _ | _) | (_ | _) | (_ | _) | _ | _
  all_goals first
    | exact absurd rfl fragment
    | exact absurd rfl group
    | decide

end Token

/-- Every joiner stands between two things that it joins, and no parentheses are empty. -/
structure WellJoined (tokens : List Token) : Prop where
  first : ∀ t ∈ tokens.head?, t.isJoiner = false
  last : ∀ t ∈ tokens.getLast?, t.isJoiner = false
  /-- no joiner and no closing parenthesis right behind a joiner or an opening one -/
  inside : tokens.IsChain Token.Meet

/-- The tokens that the writer appends for a condition tree. -/
def shownTokens (limit : Nat) (nodes : List Node) : List Token :=
  (emit limit nodes).written.filter Token.isShown

/-- The others leave no trace in the text. -/
theorem layOut_filter_isShown (tokens : List Token) :
    layOut (tokens.filter Token.isShown) = layOut tokens := by
  induction tokens with
  | nil => rfl
  | cons t rest ih =>
      by_cases shown : t.isShown = true
      · rw [List.filter_cons_of_pos shown, layOut, layOut, ih]
      · have empty : t.pieces = [] := by simpa [Token.isShown] using shown
        rw [List.filter_cons_of_neg shown, layOut, empty, beside_nil_left, ih]

/-! ## Phrases -/

/-- Tokens that may stand behind others, perhaps none. -/
structure Continues (tokens : List Token) : Prop where
  inside : tokens.IsChain Token.Meet
  last : ∀ t ∈ tokens.getLast?, t.leads = false

/-- Tokens that may stand by themselves. -/
structure Phrase (tokens : List Token) : Prop extends Continues tokens where
  some_ : tokens ≠ []
  first : ∀ t ∈ tokens.head?, t.trails = false

theorem Continues.append {tokens more : List Token} (before : Continues tokens)
    (behind : Continues more) : Continues (tokens ++ more) where
  inside := by
    refine List.isChain_append.mpr ⟨before.inside, behind.inside, ?_⟩
    intro a last b _
    exact Token.meet_of_leads (before.last a last)
  last := by
    intro t last
    rw [List.getLast?_append] at last
    cases found : more.getLast? with
    | none =>
        rw [found] at last
        exact before.last t last
    | some u =>
        rw [found] at last
        exact behind.last t (found.trans last)

namespace Phrase

variable {tokens more : List Token}

/-- Tokens that neither lead nor trail may stand in any order. -/
theorem of_plain (some_ : tokens ≠ []) (plain : ∀ t ∈ tokens, t.leads = false ∧ t.trails = false) :
    Phrase tokens where
  inside := by
    clear some_
    induction tokens with
    | nil => exact .nil
    | cons t rest ih =>
        refine List.isChain_cons.mpr ⟨fun next _ => ?_, ?_⟩
        · exact Token.meet_of_leads (plain t List.mem_cons_self).1
        · exact ih fun u member => plain u (List.mem_cons_of_mem _ member)
  last := fun t last => (plain t (List.mem_of_getLast? last)).1
  some_ := some_
  first := fun t first => (plain t (List.mem_of_mem_head? first)).2

theorem append (before : Phrase tokens) (behind : Continues more) : Phrase (tokens ++ more) where
  toContinues := before.toContinues.append behind
  some_ := by simp [before.some_]
  first := by
    intro t first
    rw [List.head?_append_of_ne_nil _ before.some_] at first
    exact before.first t first

/-- A phrase may be joined to what is before it. -/
theorem joined (phrase : Phrase tokens) (c : Conjunction) :
    Continues (.joiner c :: tokens) where
  inside := by
    refine List.isChain_cons.mpr ⟨fun next first => ?_, phrase.inside⟩
    exact Token.meet_of_trails (phrase.first next first)
  last := by
    intro t last
    rw [List.getLast?_cons_of_ne_nil phrase.some_] at last
    exact phrase.last t last

/-- A phrase in parentheses is one. -/
theorem parenthesized (phrase : Phrase tokens) : Phrase (.openGroup :: (tokens ++ [.closeGroup])) where
  inside := by
    have closed : (tokens ++ [Token.closeGroup]).IsChain Token.Meet := by
      refine List.isChain_append.mpr ⟨phrase.inside, List.isChain_singleton _, ?_⟩
      intro a last b _
      exact Token.meet_of_leads (phrase.last a last)
    refine List.isChain_cons.mpr ⟨fun next first => ?_, closed⟩
    rw [List.head?_append_of_ne_nil _ phrase.some_] at first
    exact Token.meet_of_trails (phrase.first next first)
  last := by
    intro t last
    rw [← List.cons_append, List.getLast?_concat] at last
    cases last
    rfl
  some_ := List.cons_ne_nil _ _
  first := by
    intro t first
    cases first
    rfl

/-- A text that is a phrase is well joined. -/
theorem wellJoined (phrase : Phrase tokens) : WellJoined tokens where
  first := by
    intro t first
    have quiet := phrase.first t first
    cases t with
    | joiner c => cases quiet
    | _ => rfl
  last := by
    intro t last
    have quiet := phrase.last t last
    cases t with
    | joiner c => cases quiet
    | _ => rfl
  inside := phrase.inside

end Phrase

/-! ## What is written is a phrase -/

/-- No fragment in the text is blank. -/
def Worded (nodes : List Node) : Prop :=
  ∀ n, Reached n nodes → n.predicate = .fragment → Text.trim n.key.text.toList ≠ []

/-- Plain tokens are a phrase when one of them shows. -/
theorem phrase_filter_of_plain {tokens : List Token}
    (shows_ : ∃ t ∈ tokens, t.isShown = true)
    (plain : ∀ t ∈ tokens, t.leads = false ∧ t.trails = false) :
    Phrase (tokens.filter Token.isShown) := by
  obtain ⟨t, member, shown⟩ := shows_
  have kept : t ∈ tokens.filter Token.isShown := List.mem_filter.mpr ⟨member, shown⟩
  refine .of_plain (List.ne_nil_of_mem kept) fun u inside => ?_
  exact plain u (List.mem_of_mem_filter inside)

/-- A key and a test are a phrase, as the sign of the test shows. -/
theorem phrase_filter_test (key : String) {p : Predicate} {tokens : List Token}
    (fragment : p ≠ .fragment) (group : p ≠ .group)
    (plain : ∀ t ∈ tokens, t.leads = false ∧ t.trails = false) :
    Phrase ((.key key :: .operator p :: tokens).filter Token.isShown) := by
  refine phrase_filter_of_plain ⟨.operator p, by simp, Token.isShown_operator fragment group⟩ ?_
  intro t member
  rcases List.mem_cons.mp member with rfl | member
  · exact ⟨rfl, rfl⟩
  rcases List.mem_cons.mp member with rfl | member
  · exact ⟨rfl, rfl⟩
  · exact plain t member

/-- A node that says something has text behind its joiner: a phrase. -/
theorem phrase_emitBody {limit depth : Nat} {n : Node} (speaks : n.Says)
    (worded : n.predicate = .fragment → Text.trim n.key.text.toList ≠ [])
    (whole : (emitBody limit depth n).failure = none)
    (inner : n.predicate = .group → (emitAll limit (depth + 1) true n.children).failure = none →
      Phrase ((emitAll limit (depth + 1) true n.children).written.filter Token.isShown)) :
    Phrase ((emitBody limit depth n).written.filter Token.isShown) := by
  cases predicate : n.predicate with
  | group =>
      obtain ⟨below, written⟩ := emitBody_group_written predicate whole
      have opens : Token.openGroup.isShown = true := rfl
      have closes : [Token.closeGroup].filter Token.isShown = [.closeGroup] := rfl
      rw [written, List.filter_cons_of_pos opens, List.filter_append, closes]
      exact (inner predicate below).parenthesized
  | fragment =>
      have written : (emitBody limit depth n).written = [.fragment n.key.text] := by
        simp only [emitBody, predicate, Emitted.of_written]
      have text : (Text.trim n.key.text.toList).map Piece.ofFragment ≠ [] :=
        fun empty => worded predicate (List.map_eq_nil_iff.mp empty)
      rw [written]
      refine phrase_filter_of_plain ⟨_, List.mem_singleton_self _, ?_⟩ ?_
      · rw [Token.isShown, Token.pieces, List.isEmpty_eq_false_iff.mpr text]
        rfl
      · intro t member
        rw [List.mem_singleton.mp member]
        exact ⟨rfl, rfl⟩
  | nullCheck negated =>
      have written : (emitBody limit depth n).written =
          [.key n.key.text, .operator (.nullCheck negated)] := by
        simp only [emitBody, predicate, Emitted.of_written]
      rw [written]
      exact phrase_filter_test _ (by simp) (by simp) (by simp)
  | member negated =>
      have list : n.predicate.isMembership = true := by rw [predicate]; rfl
      rw [emitBody_membership list] at whole ⊢
      obtain ⟨ls, _, written⟩ := literals_of_emitMembership whole
      rw [written, predicate]
      exact phrase_filter_test _ (by simp) (by simp) (by simp [Token.leads, Token.trails])
  | compare op =>
      have present : n.value.isNull = false := by
        simpa only [Node.Says, predicate] using speaks
      have written : (emitBody limit depth n).written =
          [.key n.key.text, .operator (.compare op), .hole] := by
        simp [emitBody, predicate, present]
      rw [written]
      exact phrase_filter_test _ (by simp) (by simp) (by simp [Token.leads, Token.trails])

/-- **What a list of nodes writes may stand behind other text, and by itself when the first
node leads.** -/
theorem phrase_emitAll (limit : Nat) (nodes : List Node) :
    ∀ depth leading, Settled nodes → Worded nodes →
      (emitAll limit depth leading nodes).failure = none →
      Continues ((emitAll limit depth leading nodes).written.filter Token.isShown) ∧
        (leading = true → nodes ≠ [] →
          Phrase ((emitAll limit depth leading nodes).written.filter Token.isShown)) := by
  induction nodes using forest_induction with
  | nil =>
      intro depth leading _ _ _
      rw [emitAll]
      exact ⟨⟨.nil, by simp⟩, fun _ some_ => absurd rfl some_⟩
  | cons n rest inner after =>
      intro depth leading settled worded whole
      obtain ⟨speaks, settledBelow, settledRest⟩ := settled.cases
      obtain ⟨wordedFirst, wordedBelow, wordedRest⟩ := forall_reached_cons_iff.mp worded
      rw [emitAll_cons speaks, Emitted.followedBy_failure_eq_none] at whole
      obtain ⟨first, others⟩ := whole
      have behind := (after depth false settledRest wordedRest others).1
      have body : Phrase ((emitBody limit depth n).written.filter Token.isShown) := by
        rw [emitNode_failure] at first
        refine phrase_emitBody speaks wordedFirst first fun group below => ?_
        have children : n.children ≠ [] := by simpa only [Node.Says, group] using speaks
        exact (inner (depth + 1) true settledBelow (wordedBelow group) below).2 rfl children
      -- The joiner of a leading node is empty; any other stands before the phrase of its body.
      have plain : (Token.joiner .none).isShown = false := rfl
      rw [emitAll_cons speaks, Emitted.followedBy_written first, emitNode_written,
        List.cons_append, List.filter_cons]
      cases leading with
      | true =>
          simp only [if_pos, plain, Bool.false_eq_true, if_false, List.filter_append]
          exact ⟨(body.append behind).toContinues, fun _ _ => body.append behind⟩
      | false =>
          refine ⟨?_, fun leads => by cases leads⟩
          simp only [Bool.false_eq_true, if_false, List.filter_append]
          split
          · rw [← List.cons_append]
            exact (body.joined n.conjunction).append behind
          · exact (body.append behind).toContinues

/-! ## The theorem -/

/-- At the root the first node leads when it has no conjunction. -/
theorem emit_of_conjunction_none {limit : Nat} {n : Node} {rest : List Node} (speaks : n.Says)
    (first : n.conjunction = .none) :
    emit limit (n :: rest) = emitAll limit 0 true (n :: rest) := by
  rw [emit, emitAll_cons speaks, emitAll_cons speaks, emitNode_eq, emitNode_eq, first]
  rfl

theorem phrase_shownTokens {limit : Nat} {n : Node} {rest : List Node}
    (settled : Settled (n :: rest)) (worded : Worded (n :: rest)) (first : n.conjunction = .none)
    (whole : (emit limit (n :: rest)).failure = none) :
    Phrase (shownTokens limit (n :: rest)) := by
  have leads : emit limit (n :: rest) = emitAll limit 0 true (n :: rest) :=
    emit_of_conjunction_none settled.cases.1 first
  rw [shownTokens, leads]
  rw [leads] at whole
  exact (phrase_emitAll limit (n :: rest) 0 true settled worded whole).2 rfl (List.cons_ne_nil _ _)

/-- **The text that a forest compiles to is well joined** when no fragment that is left is
blank: its tokens are those of the text, and no joiner of them and no parenthesis stands
without something to join. -/
theorem wellJoined_of_compile {ctx : Context} {dialect : Dialect} {nodes left : List Node}
    {c : Compiled} (compiled : compile ctx dialect nodes = (left, .ok c)) (worded : Worded left) :
    c.sql.toList = fill dialect 0 (layOut (shownTokens ctx.limit left)) ∧
      WellJoined (shownTokens ctx.limit left) := by
  obtain ⟨filtered, rfl, rendered⟩ := compile_eq_ok_iff.mp compiled
  obtain ⟨_, written, rfl⟩ := compileUnfiltered_eq_ok_iff.mp rendered
  have settled := (leaves_of_whole filtered).settled
  change Settled (filter ctx nodes).nodes at settled
  constructor
  · rw [shownTokens, layOut_filter_isShown]
    exact String.toList_ofList
  · clear compiled rendered
    generalize (filter ctx nodes).nodes = remaining at *
    cases remaining with
    | nil =>
        have nothing : shownTokens ctx.limit (dropFirstConjunction []) = [] := by
          rw [shownTokens, dropFirstConjunction, emit, emitAll]
          rfl
        rw [nothing]
        exact ⟨by simp, by simp, .nil⟩
    | cons n rest => exact (phrase_shownTokens (settled.joined .none) worded rfl written).wellJoined

/-- In the text and in parentheses the first condition goes. -/
def joinedExample : List Node :=
  [.ofPath ⟨none, "id"⟩ (.compare .eq) (.int 0),
    (Node.group [.ofPath ⟨none, "id"⟩ (.compare .eq) (.int 0),
      (Node.fragment "id % 2 = ?" (.array [.int 1])).joined .or,
      (Node.ofPath ⟨none, "born"⟩ (.nullCheck true) .null).joined .and]).joined .and]

/-- What is left of it. -/
def joinedExampleLeft : List Node :=
  [.group [(Node.fragment "id % 2 = ?" (.array [.int 1])).joined .or,
    (Node.ofPath ⟨none, "born"⟩ (.nullCheck true) .null).joined .and]]

theorem worded_joinedExampleLeft : Worded joinedExampleLeft := by
  simp only [Worded, joinedExampleLeft, Node.group, Node.joined, Node.fragment, Node.ofPath,
    forall_reached_cons_iff, not_reached_nil, false_imp_iff, implies_true, and_true]
  decide

theorem compile_joinedExample :
    compile (userSchema.context "users" [] 2) .postgres joinedExample =
      (joinedExampleLeft, .ok ⟨"( id % 2 = $1 AND born IS NOT NULL )", [.int 1], 1⟩) :=
  rfl

theorem wellJoined_of_compile_users : WellJoined (shownTokens 2 joinedExampleLeft) :=
  (wellJoined_of_compile compile_joinedExample worded_joinedExampleLeft).2

/-- Blank text in front of a condition. -/
def blankFragment : List Node :=
  [.fragment " " .null, (Node.ofPath ⟨none, "id"⟩ (.compare .eq) (.int 5)).joined .and]

/-- **With a blank fragment the text may begin with a joiner.** -/
theorem compile_blankFragment :
    compile (userSchema.context "users" [] 2) .postgres blankFragment =
        (blankFragment, .ok ⟨"AND id = $1", [.int 5], 1⟩) ∧
      ¬ WellJoined (shownTokens 2 blankFragment) := by
  refine ⟨rfl, fun joined => ?_⟩
  cases joined.first (.joiner .and) rfl

end Criteria
