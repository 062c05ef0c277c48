/-
# Criteria.Proofs.Spellings -- one text, its placeholders spelled in two ways

Filtering and rendering do not ask for the dialect: a compilation fails in both dialects
or in none, and what it lays out is one text with holes.  `gaps` is the text between the
holes, and `weave` puts the spelled placeholders in between again; so the two SQL texts
have the same gaps (`dialects_agree`).

The holes are counted along the tree by `holesAll`: one for each comparison and one for
each question mark of a fragment.  Where no other question mark is written
(`Node.Unquestioned`), the one text is read off the other by numbering its question marks
(`numbered`).
-/
import Criteria.Proofs.Alignment
import Criteria.Proofs.Defusing
import Criteria.Proofs.Emitting

namespace Criteria

set_option autoImplicit false

/-! ## Text between holes -/

/-- The texts between the holes: one more than there are holes. -/
def gaps : List Piece → List (List Char)
  | [] => [[]]
  | .hole :: rest => [] :: gaps rest
  | .char c :: rest =>
      match gaps rest with
      | [] => [[c]]
      | text :: more => (c :: text) :: more

/-- Texts with spelled placeholders between them, counted on from `count`. -/
def weave (spelling : Nat → List Char) (count : Nat) : List (List Char) → List Char
  | [] => []
  | [text] => text
  | text :: more => text ++ spelling (count + 1) ++ weave spelling (count + 1) more

theorem length_gaps (pieces : List Piece) :
    (gaps pieces).length = pieces.count .hole + 1 := by
  induction pieces with
  | nil => rfl
  | cons piece rest ih =>
      cases piece with
      | hole => rw [gaps, List.length_cons, ih, List.count_cons_self]
      | char c =>
          rw [List.count_cons_of_ne (by simp), ← ih, gaps]
          cases found : gaps rest with
          | nil => simp [found] at ih
          | cons text more => rfl

theorem exists_gaps_eq_cons (pieces : List Piece) :
    ∃ text more, gaps pieces = text :: more := by
  refine List.exists_cons_of_length_pos ?_
  rw [length_gaps]
  exact Nat.succ_pos _

/-- A text with its holes filled is its gaps with the placeholders between them. -/
theorem fill_eq_weave (dialect : Dialect) (pieces : List Piece) :
    ∀ count, fill dialect count pieces = weave dialect.placeholder count (gaps pieces) := by
  induction pieces with
  | nil => exact fun _ => rfl
  | cons piece rest ih =>
      intro count
      obtain ⟨text, more, found⟩ := exists_gaps_eq_cons rest
      cases piece with
      | hole =>
          rw [fill, ih, gaps, found]
          exact (List.append_assoc [] _ _).symm
      | char c =>
          rw [fill, ih, gaps, found]
          cases more <;> rfl

/-! ## Numbering question marks -/

/-- The text with each question mark replaced by its number, counted on from `count`. -/
def numbered (count : Nat) : List Char → List Char
  | [] => []
  | c :: rest =>
      if c = '?' then '$' :: Nat.toDigits 10 (count + 1) ++ numbered (count + 1) rest
      else c :: numbered count rest

/-- Where all question marks are placeholders, numbering them gives the other spelling. -/
theorem fill_postgres_eq_numbered {pieces : List Piece} (plain : Piece.char '?' ∉ pieces) :
    ∀ count other, fill .postgres count pieces = numbered count (fill .question other pieces) := by
  induction pieces with
  | nil => exact fun _ _ => rfl
  | cons piece rest ih =>
      intro count other
      rw [List.mem_cons, not_or] at plain
      cases piece with
      | hole =>
          rw [fill, fill, ih plain.2 (count + 1) (other + 1)]
          rfl
      | char c =>
          have unasked : c ≠ '?' := fun question => plain.1 (by rw [question])
          rw [fill, fill, numbered, if_neg unasked, ih plain.2 count other]

/-- With another question mark it does not. -/
example :
    fill .postgres 0 [.char '?', .hole] ≠ numbered 0 (fill .question 0 [.char '?', .hole]) := by
  decide

/-! ## The holes of a tree -/

mutual

/-- The holes of a node: one for the value of a comparison, and one for each question mark
of a fragment. -/
def holesNode (here : Address) : Node → List Slot
  | ⟨_, key, predicate, v, children⟩ =>
      match predicate with
      | .compare _ => if v.isNull then [] else [⟨here, 0⟩]
      | .fragment => (List.range (key.text.toList.count '?')).map (Slot.mk here)
      | .group => holesAll here 0 children
      | _ => []

/-- The holes of a list of nodes in the order of the nodes.  The first of them stands at
`place` below `parent`. -/
def holesAll (parent : Address) (place : Nat) : List Node → List Slot
  | [] => []
  | n :: rest => holesNode (parent ++ [place]) n ++ holesAll parent (place + 1) rest

end

theorem holesNode_group {n : Node} (group : n.predicate = .group) (here : Address) :
    holesNode here n = holesAll here 0 n.children := by
  obtain ⟨conjunction, key, predicate, v, children⟩ := n
  cases group
  rfl

theorem holesNode_of_isEmptyGroup {n : Node} (empty : n.isEmptyGroup = true) (here : Address) :
    holesNode here n = [] := by
  obtain ⟨conjunction, key, predicate, v, children⟩ := n
  simp only [Node.isEmptyGroup, Bool.and_eq_true, decide_eq_true_eq, List.isEmpty_iff] at empty
  obtain ⟨rfl, rfl⟩ := empty
  rfl

/-- A condition that is no group writes the holes that it has. -/
theorem traceNode_holes {n : Node} (leaf : n.predicate ≠ .group) (limit depth : Nat)
    (leading : Bool) (here : Address) :
    (traceNode limit depth leading here n).written.flatMap tokenSlots = holesNode here n := by
  obtain ⟨conjunction, key, predicate, v, children⟩ := n
  cases predicate with
  | group => exact absurd rfl leaf
  | nullCheck negated => rfl
  | member negated =>
      simp only [traceNode, emitNode, emitMembership]
      cases (members? key v).bind (literals key.text) <;> rfl
  | compare op =>
      simp only [traceNode, emitNode, holesNode]
      cases v.isNull <;> rfl
  | fragment => exact List.append_nil _

/-- **The text of a tree has the holes of the tree**, in their order. -/
theorem traceAll_holes (limit : Nat) (nodes : List Node) :
    ∀ depth leading parent place,
      (traceAll limit depth leading parent place nodes).failure = none →
      (traceAll limit depth leading parent place nodes).written.flatMap tokenSlots =
        holesAll parent place nodes := by
  induction nodes using forest_induction with
  | nil => intros; rfl
  | cons n rest inner after =>
      intro depth leading parent place written
      rw [holesAll]
      by_cases empty : n.isEmptyGroup = true
      · rw [traceAll, if_pos empty] at written ⊢
        rw [holesNode_of_isEmptyGroup empty, List.nil_append]
        exact after _ _ _ _ written
      · rw [traceAll, if_neg empty, Emitted.followedBy_failure_eq_none] at written
        rw [traceAll, if_neg empty, Emitted.followedBy_written written.1, List.flatMap_append,
          after _ _ _ _ written.2]
        congr 1
        by_cases group : n.predicate = .group
        · rw [traceNode_group_slots group written.1,
            inner _ _ _ _ (traceNode_group_written group written.1).1, holesNode_group group]
        · exact traceNode_holes group limit depth leading _

theorem placeholderSlots_eq_holesAll {limit : Nat} {nodes : List Node}
    (written : (emit limit nodes).failure = none) :
    placeholderSlots limit nodes = holesAll [] 0 nodes := by
  have traced : (traceAll limit 0 false [] 0 nodes).failure = none :=
    (congrArg Emitted.failure (traceAll_map_snd limit nodes 0 false [] 0)).trans written
  rw [placeholderSlots, markedText, layOutMarked_slots]
  exact traceAll_holes limit nodes 0 false [] 0 traced

/-! ## Question marks that are no placeholders -/

/-- A node writes no question mark but for its placeholders: there is none in its key and
none in its items. -/
def Node.Unquestioned (n : Node) : Prop :=
  (n.predicate ≠ .group → n.predicate ≠ .fragment → '?' ∉ n.key.text.toList) ∧
    (n.predicate.isMembership = true → ∀ v ∈ n.value.members, '?' ∉ v.chars)

/-- All question marks in the text of a token are placeholders. -/
def Token.Unquestioned (t : Token) : Prop :=
  Piece.char '?' ∉ t.pieces

instance (t : Token) : Decidable t.Unquestioned :=
  inferInstanceAs (Decidable (Piece.char '?' ∉ t.pieces))

theorem mem_beside {α : Type} {x blank : α} {before after : List α}
    (member : x ∈ beside blank before after) : x ∈ before ∨ x = blank ∨ x ∈ after := by
  unfold beside at member
  split at member
  · exact .inr (.inr member)
  · split at member
    · exact .inl member
    · rcases List.mem_append.mp member with inBefore | later
      · exact .inl inBefore
      · exact .inr (List.mem_cons.mp later)

theorem char_not_mem_layOut {tokens : List Token} (plain : ∀ t ∈ tokens, t.Unquestioned) :
    Piece.char '?' ∉ layOut tokens := by
  induction tokens with
  | nil => exact List.not_mem_nil
  | cons t rest ih =>
      intro member
      rcases mem_beside member with inFirst | blank | inRest
      · exact plain t List.mem_cons_self inFirst
      · cases blank
      · exact ih (fun u inRest => plain u (List.mem_cons_of_mem _ inRest)) inRest

/-- What is written of an item has a question mark only where the item has one. -/
theorem question_mem_literal_chars {kind : LiteralKind} {v : Value} {l : Literal}
    (written : kind.literal? v = some l) (asked : '?' ∈ l.chars) : '?' ∈ v.chars := by
  have shape : l = .quoted v.chars ∨ l = .bare v.chars := by
    cases kind <;> cases v <;>
      simp only [LiteralKind.literal?, reduceCtorEq, Option.some.injEq, Option.ite_none_left_eq_some]
        at written <;> simp_all
  rcases shape with rfl | rfl
  · rw [Literal.chars, quoteChars] at asked
    have inside : '?' ∈ doubleQuotes (defuseChars v.chars) := by simpa using asked
    exact mem_of_mem_defuseChars (by decide) ((masked_doubleQuotes _).mem (by decide) inside)
  · exact asked

theorem question_mem_joinLiterals {ls : List Literal} (asked : '?' ∈ joinLiterals ls) :
    ∃ l ∈ ls, '?' ∈ l.chars := by
  refine Classical.byContradiction fun unasked => ?_
  have each : ∀ l ∈ ls, '?' ∉ l.chars := fun l member inItem => unasked ⟨l, member, inItem⟩
  refine joinLiterals_induction (P := fun text => '?' ∉ text) nofun ?_ each asked
  intro front back before behind
  simp [before, behind]

theorem question_mem_listChars {ls : List Literal} (asked : '?' ∈ listChars ls) :
    ∃ l ∈ ls, '?' ∈ l.chars := by
  unfold listChars at asked
  split at asked
  · simp at asked
  · have inside : '?' ∈ joinLiterals ls := by simpa using asked
    exact question_mem_joinLiterals inside

theorem unquestioned_key {text : String} (plain : '?' ∉ text.toList) :
    (Token.key text).Unquestioned := by
  simpa [Token.Unquestioned, Token.pieces] using plain

theorem unquestioned_operator (p : Predicate) : (Token.operator p).Unquestioned := by
  rcases p with (_ | _ | _ | _ | _ | _) | (_ | _) | (_ | _) | _ | _ <;>
    simp [Token.Unquestioned, Token.pieces] <;> decide

theorem unquestioned_list {key : String} {items : List Value} {ls : List Literal}
    (written : literals key items = .ok ls) (plain : ∀ v ∈ items, '?' ∉ v.chars) :
    (Token.list ls).Unquestioned := by
  intro asked
  have inList : '?' ∈ listChars ls := by simpa [Token.pieces] using asked
  obtain ⟨l, member, inLiteral⟩ := question_mem_listChars inList
  obtain ⟨kind, v, inItems, -, found⟩ := exists_item_of_literals written l member
  exact plain v inItems (question_mem_literal_chars found inLiteral)

/-- In a fragment all question marks are placeholders. -/
theorem unquestioned_fragment (sql : String) : (Token.fragment sql).Unquestioned := by
  intro asked
  obtain ⟨c, _, piece⟩ := List.mem_map.mp asked
  unfold Piece.ofFragment at piece
  split at piece
  · cases piece
  · rename_i other
    cases piece
    exact other rfl

theorem unquestioned_emitMembership {key : Key} {p : Predicate} {v : Value}
    (plainKey : '?' ∉ key.text.toList) (plainItems : ∀ w ∈ v.members, '?' ∉ w.chars) :
    ∀ t ∈ (emitMembership key p v).written, t.Unquestioned := by
  cases ended : (emitMembership key p v).failure with
  | some f =>
      unfold emitMembership at ended ⊢
      split at ended
      · cases ended
      · simp
  | none =>
      obtain ⟨ls, found, written⟩ := literals_of_emitMembership ended
      rw [written]
      simp only [List.mem_cons, List.not_mem_nil, or_false, forall_eq_or_imp, forall_eq]
      exact ⟨unquestioned_key plainKey, unquestioned_operator p, unquestioned_list found plainItems⟩

theorem unquestioned_emitBody {limit depth : Nat} {n : Node} (plain : n.Unquestioned)
    (inner : n.predicate = .group →
      ∀ t ∈ (emitAll limit (depth + 1) true n.children).written, t.Unquestioned) :
    ∀ t ∈ (emitBody limit depth n).written, t.Unquestioned := by
  obtain ⟨plainKey, plainItems⟩ := plain
  have opens : Token.openGroup.Unquestioned := by decide
  have closes : Token.closeGroup.Unquestioned := by decide
  have holes : Token.hole.Unquestioned := by decide
  unfold emitBody
  cases predicate : n.predicate with
  | group =>
      intro t member
      rcases Emitted.mem_followedBy member with front | closing
      · rcases Emitted.mem_followedBy front with opening | below
        · rw [List.mem_singleton.mp opening]
          exact opens
        · split at below
          · cases below
          · exact inner predicate t below
      · rw [List.mem_singleton.mp closing]
        exact closes
  | fragment =>
      intro t member
      rw [List.mem_singleton.mp member]
      exact unquestioned_fragment _
  | nullCheck negated =>
      have key := unquestioned_key (plainKey (by simp [predicate]) (by simp [predicate]))
      simpa using ⟨key, unquestioned_operator (.nullCheck negated)⟩
  | member negated =>
      exact unquestioned_emitMembership (plainKey (by simp [predicate]) (by simp [predicate]))
        (plainItems (by rw [predicate]; rfl))
  | compare op =>
      have key := unquestioned_key (plainKey (by simp [predicate]) (by simp [predicate]))
      have operator := unquestioned_operator (.compare op)
      cases n.value.isNull with
      | true => simpa using ⟨key, operator⟩
      | false => simpa using ⟨key, operator, holes⟩

/-- **Where no node has another question mark, the text has none but its placeholders.** -/
theorem unquestioned_emitAll (limit : Nat) (nodes : List Node) :
    ∀ depth leading, (∀ n, Reached n nodes → n.Unquestioned) →
      ∀ t ∈ (emitAll limit depth leading nodes).written, t.Unquestioned := by
  induction nodes using forest_induction with
  | nil =>
      intro depth leading _ t member
      rw [emitAll] at member
      cases member
  | cons n rest inner after =>
      intro depth leading plain t member
      obtain ⟨first, below, behind⟩ := forall_reached_cons_iff.mp plain
      rw [emitAll] at member
      split at member
      · exact after depth leading behind t member
      · rcases Emitted.mem_followedBy member with ofFirst | later
        · rw [emitNode_written] at ofFirst
          rcases List.mem_cons.mp ofFirst with rfl | inBody
          · cases leading <;> cases n.conjunction <;> decide
          · exact unquestioned_emitBody first
              (fun group => inner (depth + 1) true (below group)) t inBody
        · exact after depth false behind t later

/-! ## The theorem -/

/-- What two compilations of a tree, of which `left` remains, have in common when the
placeholders of the one are question marks and those of the other numbers. -/
structure Spellings (limit : Nat) (left : List Node) (question postgres : Compiled) : Prop where
  params : question.params = postgres.params
  placeholders : question.placeholders = postgres.placeholders
  /-- the holes are those of the comparisons and fragments, in the order of the tree -/
  holes : (markedText limit left).filterMap Mark.slot? = holesAll [] 0 left
  /-- there is one text more than there are placeholders -/
  length : (gaps ((markedText limit left).map Mark.piece)).length = question.placeholders + 1
  asked : question.sql.toList =
    weave (fun _ => ['?']) 0 (gaps ((markedText limit left).map Mark.piece))
  counted : postgres.sql.toList =
    weave (fun k => '$' :: Nat.toDigits 10 k) 0 (gaps ((markedText limit left).map Mark.piece))
  /-- without other question marks the one text is the other, numbered -/
  numbered : (∀ n, Reached n left → n.Unquestioned) →
    postgres.sql.toList = numbered 0 question.sql.toList

theorem spellings_of_rendered {limit : Nat} {left : List Node}
    (written : (emit limit left).failure = none) :
    Spellings limit left
      ⟨.ofList (fill .question 0 (layOut (emit limit left).written)), (bindings limit left).written,
        (layOut (emit limit left).written).count .hole⟩
      ⟨.ofList (fill .postgres 0 (layOut (emit limit left).written)), (bindings limit left).written,
        (layOut (emit limit left).written).count .hole⟩ := by
  have tokens : (markedText limit left).map Mark.piece = layOut (emit limit left).written := by
    rw [markedText, layOutMarked_map_piece]
    exact congrArg (layOut ·.written) (traceAll_map_snd limit left 0 false [] 0)
  refine ⟨rfl, rfl, placeholderSlots_eq_holesAll written, ?_, ?_, ?_, fun plain => ?_⟩
  · rw [tokens, length_gaps]
  · rw [tokens, String.toList_ofList, fill_eq_weave]
    rfl
  · rw [tokens, String.toList_ofList, fill_eq_weave]
    rfl
  · rw [String.toList_ofList, String.toList_ofList]
    exact fill_postgres_eq_numbered
      (char_not_mem_layOut (unquestioned_emitAll limit left 0 false plain)) 0 0

/-- **The two dialects agree.**  Compiling with either fails with the same fault, or
succeeds with the same values, the same number of placeholders and the same text between
them; the tree that is left is the same in any case. -/
theorem dialects_agree (ctx : Context) (nodes : List Node) :
    (∃ left f, compile ctx .question nodes = (left, .error f) ∧
        compile ctx .postgres nodes = (left, .error f)) ∨
      ∃ left question postgres, compile ctx .question nodes = (left, .ok question) ∧
        compile ctx .postgres nodes = (left, .ok postgres) ∧
        Spellings ctx.limit left question postgres := by
  cases ended : (filter ctx nodes).failure with
  | some f => exact .inl ⟨_, f, compile_of_fault _ ended, compile_of_fault _ ended⟩
  | none =>
      rw [compile_of_whole _ ended, compile_of_whole _ ended]
      generalize dropFirstConjunction (filter ctx nodes).nodes = left
      cases bound : (bindings ctx.limit left).failure with
      | some f =>
          have failed : ∀ dialect, compileUnfiltered dialect ctx.limit left = .error f := by
            intro dialect
            rw [compileUnfiltered_eq, bound, Option.some_or]
          exact .inl ⟨left, f, by rw [failed], by rw [failed]⟩
      | none =>
          cases written : (emit ctx.limit left).failure with
          | some f =>
              have failed : ∀ dialect, compileUnfiltered dialect ctx.limit left = .error f := by
                intro dialect
                rw [compileUnfiltered_eq, bound, written, Option.none_or]
              exact .inl ⟨left, f, by rw [failed], by rw [failed]⟩
          | none =>
              have rendered : ∀ dialect, compileUnfiltered dialect ctx.limit left = .ok _ :=
                fun dialect => compileUnfiltered_eq_ok_iff.mpr ⟨bound, written, rfl⟩
              refine .inr ⟨left, _, _, ?_, ?_, spellings_of_rendered written⟩
              · rw [rendered]
              · rw [rendered]

end Criteria
