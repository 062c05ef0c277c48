/-
# Criteria.Proofs.Alignment -- each placeholder and its value come from one condition

The text and the bound values are written by two walks, `emitAll` and `bindAll`.
`Aligned` says that they stay in step: the `k`-th placeholder of the text and the
`k`-th value stand for the same `Slot`, that is for the same comparison or for the
same item of the same fragment.

To speak of where something comes from, both walks are repeated with addresses.
`traceAll` writes each token with the address of the node that wrote it, and
`traceBoundAll` each value with its slot; forgetting the addresses gives the walks back
(`traceAll_map_snd`, `traceBoundAll_map_snd`), and the laid-out text as well
(`layOutMarked_map_piece`).

The one thing that is asked of a tree is that its fragments have as many question
marks as values (`Node.Balanced`).
-/
import Criteria.Compile
import Criteria.Proofs.Forest

namespace Criteria

set_option autoImplicit false

/-- What a placeholder stands for: the value of a comparison, or an item of a
fragment's array, counted from zero. -/
structure Slot where
  address : Address
  item : Nat
  deriving DecidableEq, Repr

/-- The value that a condition gives to one of its slots. -/
inductive Binds (n : Node) : Nat → Value → Prop where
  | comparison {op : Comparison} :
      n.predicate = .compare op → n.value.isNull = false → Binds n 0 n.value.toBind
  | item {items : List Value} {i : Nat} {v : Value} :
      n.predicate = .fragment → n.value = .array items → items[i]? = some v → Binds n i v.toBind

/-- The items that the question marks of a fragment stand for. -/
def Value.bound : Value → List Value
  | .array items => items
  | _ => []

/-- A fragment has a question mark for each of its items. -/
def Node.Balanced (n : Node) : Prop :=
  n.predicate = .fragment → n.key.text.toList.count '?' = n.value.bound.length

/-! ## The holes of a token -/

theorem count_hole_map_ofFragment (text : List Char) :
    (text.map Piece.ofFragment).count .hole = text.count '?' := by
  induction text with
  | nil => rfl
  | cons c rest ih => by_cases question : c = '?' <;> simp [Piece.ofFragment, question, ih]

/-- The number of placeholders that a token asks for. -/
def Token.holes : Token → Nat
  | .hole => 1
  | .fragment sql => sql.toList.count '?'
  | _ => 0

theorem Token.count_hole_pieces (t : Token) : t.pieces.count .hole = t.holes := by
  cases t with
  | fragment sql => exact (count_hole_map_ofFragment _).trans (Text.count_trim rfl _)
  | hole => rfl
  | openGroup => rfl
  | closeGroup => rfl
  | _ => exact count_hole_map_char _

/-! ## Marked text -/

/-- A piece of text whose holes know their slots. -/
inductive Mark where
  | char (c : Char)
  | hole (s : Slot)

namespace Mark

def piece : Mark → Piece
  | .char c => .char c
  | .hole _ => .hole

def slot? : Mark → Option Slot
  | .char _ => none
  | .hole s => some s

end Mark

/-- The pieces of a token, its holes numbered from `item` on. -/
def markFrom (address : Address) : Nat → List Piece → List Mark
  | _, [] => []
  | item, .char c :: rest => .char c :: markFrom address item rest
  | item, .hole :: rest => .hole ⟨address, item⟩ :: markFrom address (item + 1) rest

/-- The text of several tokens, with the slots of its holes. -/
def layOutMarked : List (Address × Token) → List Mark
  | [] => []
  | (address, t) :: rest => beside (.char ' ') (markFrom address 0 t.pieces) (layOutMarked rest)

theorem beside_map {α β : Type} (f : α → β) (blank : α) (before after : List α) :
    (beside blank before after).map f = beside (f blank) (before.map f) (after.map f) := by
  cases before <;> cases after <;> simp [beside]

theorem markFrom_map_piece (address : Address) (item : Nat) (pieces : List Piece) :
    (markFrom address item pieces).map Mark.piece = pieces := by
  induction pieces generalizing item with
  | nil => rfl
  | cons p rest ih => cases p <;> simp [markFrom, Mark.piece, ih]

theorem layOutMarked_map_piece (tokens : List (Address × Token)) :
    (layOutMarked tokens).map Mark.piece = layOut (tokens.map Prod.snd) := by
  induction tokens with
  | nil => rfl
  | cons t rest ih =>
      rw [layOutMarked, beside_map, markFrom_map_piece, ih]
      rfl

theorem markFrom_slots (address : Address) (item : Nat) (pieces : List Piece) :
    (markFrom address item pieces).filterMap Mark.slot? =
      (List.range' item (pieces.count .hole)).map (Slot.mk address) := by
  induction pieces generalizing item with
  | nil => rfl
  | cons p rest ih =>
      cases p <;> simp [markFrom, List.filterMap_cons, Mark.slot?, ih, List.range'_succ]

/-- The slots that a token has holes for. -/
def tokenSlots (t : Address × Token) : List Slot :=
  (List.range t.2.holes).map (Slot.mk t.1)

/-- The blanks between tokens are no holes. -/
theorem beside_slots (before after : List Mark) :
    (beside (.char ' ') before after).filterMap Mark.slot? =
      before.filterMap Mark.slot? ++ after.filterMap Mark.slot? := by
  cases before with
  | nil => rfl
  | cons m before =>
      cases after with
      | nil => simp [beside]
      | cons l after =>
          simp only [beside, List.isEmpty_cons, Bool.false_eq_true, if_false]
          rw [List.filterMap_append]
          rfl

theorem layOutMarked_slots (tokens : List (Address × Token)) :
    (layOutMarked tokens).filterMap Mark.slot? = tokens.flatMap tokenSlots := by
  induction tokens with
  | nil => rfl
  | cons t rest ih =>
      rw [layOutMarked, beside_slots, markFrom_slots, ih, List.flatMap_cons, tokenSlots,
        List.range_eq_range', Token.count_hole_pieces]

theorem count_hole_map_piece (marks : List Mark) :
    (marks.map Mark.piece).count .hole = (marks.filterMap Mark.slot?).length := by
  induction marks with
  | nil => rfl
  | cons m rest ih => cases m <;> simp [Mark.piece, List.filterMap_cons, Mark.slot?, ih]

/-! ## The walks with addresses -/

namespace Emitted

variable {α β : Type}

def map (f : α → β) (e : Emitted α) : Emitted β :=
  ⟨e.written.map f, e.failure⟩

theorem map_followedBy (f : α → β) (a b : Emitted α) :
    (a.followedBy b).map f = (a.map f).followedBy (b.map f) := by
  unfold followedBy map
  cases h : a.failure <;> simp [h]

theorem mem_followedBy {x : α} {a b : Emitted α} (member : x ∈ (a.followedBy b).written) :
    x ∈ a.written ∨ x ∈ b.written := by
  unfold followedBy at member
  cases h : a.failure with
  | some f => exact .inl (by simpa [h] using member)
  | none => exact List.mem_append.mp (by simpa [h] using member)

theorem map_map_mk_snd {γ : Type} (x : γ) (e : Emitted α) :
    (e.map (Prod.mk x)).map Prod.snd = e := by
  simp [map, Function.comp_def]

end Emitted

mutual

/-- `emitNode`, each token with the address of its node. -/
def traceNode (limit depth : Nat) (leading : Bool) (here : Address) :
    Node → Emitted (Address × Token)
  | ⟨conjunction, key, predicate, v, children⟩ =>
      match predicate with
      | .group =>
          let inner : Emitted (Address × Token) :=
            if limit < depth + 1 then .fail (.nestingTooDeep limit)
            else traceAll limit (depth + 1) true here 0 children
          (Emitted.of [(here, .joiner (if leading then .none else conjunction))]).followedBy <|
            ((Emitted.of [(here, .openGroup)]).followedBy inner).followedBy
              (.of [(here, .closeGroup)])
      | _ =>
          (emitNode limit depth leading ⟨conjunction, key, predicate, v, children⟩).map
            (Prod.mk here)

/-- `emitAll`, each token with the address of its node.  The first of the nodes
stands at `place` below `parent`. -/
def traceAll (limit depth : Nat) (leading : Bool) (parent : Address) (place : Nat) :
    List Node → Emitted (Address × Token)
  | [] => .nothing
  | n :: rest =>
      if n.isEmptyGroup then traceAll limit depth leading parent (place + 1) rest
      else (traceNode limit depth leading (parent ++ [place]) n).followedBy
        (traceAll limit depth false parent (place + 1) rest)

end

/-- The values of one condition with their slots. -/
def itemized (here : Address) (values : List Value) : List (Slot × Value) :=
  values.zipIdx.map fun (v, item) => (⟨here, item⟩, v)

mutual

/-- `bindNode`, each value with its slot. -/
def traceBoundNode (limit depth : Nat) (here : Address) : Node → Emitted (Slot × Value)
  | ⟨conjunction, key, predicate, v, children⟩ =>
      match predicate with
      | .group =>
          if limit < depth + 1 then .fail (.nestingTooDeep limit)
          else traceBoundAll limit (depth + 1) here 0 children
      | _ =>
          let e := bindNode limit depth ⟨conjunction, key, predicate, v, children⟩
          ⟨itemized here e.written, e.failure⟩

/-- `bindAll`, each value with its slot. -/
def traceBoundAll (limit depth : Nat) (parent : Address) (place : Nat) :
    List Node → Emitted (Slot × Value)
  | [] => .nothing
  | n :: rest =>
      (traceBoundNode limit depth (parent ++ [place]) n).followedBy
        (traceBoundAll limit depth parent (place + 1) rest)

end

/-- Without the addresses the walk is the one that writes the text. -/
theorem traceAll_map_snd (limit : Nat) (nodes : List Node) :
    ∀ depth leading parent place,
      (traceAll limit depth leading parent place nodes).map Prod.snd =
        emitAll limit depth leading nodes := by
  induction nodes using forest_induction with
  | nil => intros; rfl
  | cons n rest inner after =>
      intro depth leading parent place
      have head : (traceNode limit depth leading (parent ++ [place]) n).map Prod.snd =
          emitNode limit depth leading n := by
        obtain ⟨conjunction, key, predicate, v, children⟩ := n
        cases predicate with
        | group =>
            have below := inner (depth + 1) true (parent ++ [place]) 0
            simp only [traceNode, emitNode, Emitted.map_followedBy]
            by_cases deep : limit < depth + 1
            · rw [if_pos deep, if_pos deep]
              rfl
            · rw [if_neg deep, if_neg deep, below]
              rfl
        | _ => exact Emitted.map_map_mk_snd _ _
      rw [traceAll, emitAll]
      split
      · exact after _ _ _ _
      · rw [Emitted.map_followedBy, head, after]

/-- Without the slots the walk is the one that binds the values. -/
theorem traceBoundAll_map_snd (limit : Nat) (nodes : List Node) :
    ∀ depth parent place,
      (traceBoundAll limit depth parent place nodes).map Prod.snd = bindAll limit depth nodes := by
  induction nodes using forest_induction with
  | nil => intros; rfl
  | cons n rest inner after =>
      intro depth parent place
      have head : (traceBoundNode limit depth (parent ++ [place]) n).map Prod.snd =
          bindNode limit depth n := by
        obtain ⟨conjunction, key, predicate, v, children⟩ := n
        cases predicate with
        | group =>
            simp only [traceBoundNode, bindNode]
            split
            · rfl
            · exact inner _ _ _
        | _ => simp [traceBoundNode, Emitted.map, itemized, Function.comp_def]
      rw [traceBoundAll, bindAll, Emitted.map_followedBy, head, after]

/-! ## The slots of one condition -/

theorem mem_itemized {here : Address} {values : List Value} {s : Slot} {v : Value} :
    (s, v) ∈ itemized here values ↔ s.address = here ∧ values[s.item]? = some v := by
  obtain ⟨address, item⟩ := s
  simp only [itemized, List.mem_map, List.mem_zipIdx_iff_getElem?, Prod.mk.injEq, Slot.mk.injEq]
  constructor
  · rintro ⟨⟨w, place⟩, found, ⟨rfl, rfl⟩, rfl⟩
    exact ⟨rfl, found⟩
  · rintro ⟨rfl, found⟩
    exact ⟨(v, item), found, ⟨rfl, rfl⟩, rfl⟩

theorem itemized_map_fst (here : Address) (values : List Value) :
    (itemized here values).map Prod.fst = (List.range values.length).map (Slot.mk here) := by
  rw [itemized, List.map_map, List.range_eq_range', ← List.zipIdx_map_snd, List.map_map]
  rfl

/-- A condition that is no group writes the holes for which it binds the values. -/
theorem traceNode_slots {n : Node} (balanced : n.Balanced) (leaf : n.predicate ≠ .group)
    (limit depth : Nat) (leading : Bool) (here : Address) :
    (traceNode limit depth leading here n).written.flatMap tokenSlots =
      (traceBoundNode limit depth here n).written.map Prod.fst := by
  obtain ⟨conjunction, key, predicate, v, children⟩ := n
  cases predicate with
  | group => exact absurd rfl leaf
  | nullCheck negated => rfl
  | member negated =>
      simp only [traceNode, traceBoundNode, emitNode, bindNode, emitMembership]
      cases (members? key v).bind (literals key.text) <;> rfl
  | compare op =>
      simp only [traceNode, traceBoundNode, emitNode, bindNode]
      cases v.isNull <;> rfl
  | fragment =>
      have marks : key.text.toList.count '?' = v.bound.length := balanced rfl
      have values : (bindNode limit depth ⟨conjunction, key, .fragment, v, children⟩).written =
          v.bound.map Value.toBind := by
        cases v <;> rfl
      have holes : (traceNode limit depth leading here
            ⟨conjunction, key, .fragment, v, children⟩).written.flatMap tokenSlots =
          (List.range (key.text.toList.count '?')).map (Slot.mk here) :=
        List.append_nil _
      have slots : (traceBoundNode limit depth here
            ⟨conjunction, key, .fragment, v, children⟩).written =
          itemized here (v.bound.map Value.toBind) := by
        rw [← values]
        rfl
      rw [holes, slots, itemized_map_fst, List.length_map, marks]

theorem binds_of_mem_bindNode {n : Node} (leaf : n.predicate ≠ .group) {limit depth item : Nat}
    {v : Value} (found : (bindNode limit depth n).written[item]? = some v) : Binds n item v := by
  obtain ⟨conjunction, key, predicate, value, children⟩ := n
  cases predicate with
  | group => exact absurd rfl leaf
  | nullCheck negated => simp [bindNode] at found
  | member negated => simp [bindNode] at found
  | compare op =>
      cases given : value.isNull with
      | true => simp [bindNode, given] at found
      | false =>
          simp only [bindNode, given, Emitted.of_written, Bool.false_eq_true, if_false,
            List.getElem?_singleton] at found
          split at found
          · rename_i first
            cases found
            subst first
            exact .comparison rfl given
          · cases found
  | fragment =>
      cases value with
      | array items =>
          simp only [bindNode, Emitted.of_written, List.getElem?_map, Option.map_eq_some_iff]
            at found
          obtain ⟨w, atItem, rfl⟩ := found
          exact .item rfl rfl atItem
      | _ => simp [bindNode] at found

/-! ## The slots of a tree -/

/-- A group without children binds nothing. -/
theorem traceBoundNode_of_isEmptyGroup {n : Node} (empty : n.isEmptyGroup = true)
    {limit depth : Nat} {here : Address} : (traceBoundNode limit depth here n).written = [] := by
  obtain ⟨conjunction, key, predicate, v, children⟩ := n
  simp only [Node.isEmptyGroup, Bool.and_eq_true, decide_eq_true_eq, List.isEmpty_iff] at empty
  obtain ⟨rfl, rfl⟩ := empty
  rw [traceBoundNode]
  split <;> rfl

/-- A group that is written without a fault is its children in parentheses, which stand at
the address of the group. -/
theorem traceNode_group_written {n : Node} (group : n.predicate = .group) {limit depth : Nat}
    {leading : Bool} {here : Address}
    (written : (traceNode limit depth leading here n).failure = none) :
    (traceAll limit (depth + 1) true here 0 n.children).failure = none ∧
      (traceNode limit depth leading here n).written =
        (here, .joiner (if leading then .none else n.conjunction)) :: (here, .openGroup) ::
          ((traceAll limit (depth + 1) true here 0 n.children).written ++
            [(here, .closeGroup)]) := by
  obtain ⟨conjunction, key, predicate, v, children⟩ := n
  cases group
  simp only [traceNode] at written ⊢
  by_cases deep : limit < depth + 1
  · simp [deep] at written
  · simp only [if_neg deep, Emitted.followedBy_failure_eq_none] at written ⊢
    obtain ⟨joiner, ⟨opening, within⟩, -⟩ := written
    refine ⟨within, ?_⟩
    rw [Emitted.followedBy_written joiner,
      Emitted.followedBy_written (Emitted.followedBy_failure_eq_none.mpr ⟨opening, within⟩),
      Emitted.followedBy_written opening]
    rfl

/-- The parentheses of a group have no slots. -/
theorem traceNode_group_slots {n : Node} (group : n.predicate = .group) {limit depth : Nat}
    {leading : Bool} {here : Address}
    (written : (traceNode limit depth leading here n).failure = none) :
    (traceNode limit depth leading here n).written.flatMap tokenSlots =
      (traceAll limit (depth + 1) true here 0 n.children).written.flatMap tokenSlots := by
  rw [(traceNode_group_written group written).2]
  simp [List.flatMap_append, tokenSlots, Token.holes]

theorem traceNode_slots_group {n : Node} (group : n.predicate = .group) {limit depth : Nat}
    {leading : Bool} {here : Address}
    (inner : (traceAll limit (depth + 1) true here 0 n.children).failure = none →
      (traceBoundAll limit (depth + 1) here 0 n.children).failure = none →
      (traceAll limit (depth + 1) true here 0 n.children).written.flatMap tokenSlots =
        (traceBoundAll limit (depth + 1) here 0 n.children).written.map Prod.fst)
    (written : (traceNode limit depth leading here n).failure = none)
    (bound : (traceBoundNode limit depth here n).failure = none) :
    (traceNode limit depth leading here n).written.flatMap tokenSlots =
      (traceBoundNode limit depth here n).written.map Prod.fst := by
  rw [traceNode_group_slots group written]
  obtain ⟨conjunction, key, predicate, v, children⟩ := n
  cases group
  simp only [traceBoundNode] at bound ⊢
  by_cases deep : limit < depth + 1
  · rw [if_pos deep] at bound
    cases bound
  · rw [if_neg deep] at bound ⊢
    exact inner (traceNode_group_written rfl written).1 bound

/-- The two walks come to the same slots in the same order. -/
theorem traceAll_slots (limit : Nat) (nodes : List Node) :
    ∀ depth leading parent place, (∀ n, Reached n nodes → n.Balanced) →
      (traceAll limit depth leading parent place nodes).failure = none →
      (traceBoundAll limit depth parent place nodes).failure = none →
      (traceAll limit depth leading parent place nodes).written.flatMap tokenSlots =
        (traceBoundAll limit depth parent place nodes).written.map Prod.fst := by
  induction nodes using forest_induction with
  | nil => intros; rfl
  | cons n rest inner after =>
      intro depth leading parent place balanced written bound
      obtain ⟨headBalanced, innerBalanced, restBalanced⟩ := forall_reached_cons_iff.mp balanced
      rw [traceBoundAll, Emitted.followedBy_failure_eq_none] at bound
      rw [traceBoundAll, Emitted.followedBy_written bound.1, List.map_append]
      -- An empty group is passed over by the one walk and binds nothing in the other.
      by_cases empty : n.isEmptyGroup = true
      · rw [traceAll, if_pos empty] at written ⊢
        rw [traceBoundNode_of_isEmptyGroup empty, List.map_nil, List.nil_append]
        exact after _ _ _ _ restBalanced written bound.2
      · rw [traceAll, if_neg empty, Emitted.followedBy_failure_eq_none] at written
        rw [traceAll, if_neg empty, Emitted.followedBy_written written.1, List.flatMap_append,
          after _ _ _ _ restBalanced written.2 bound.2]
        congr 1
        by_cases group : n.predicate = .group
        · exact traceNode_slots_group group
            (inner (depth + 1) true (parent ++ [place]) 0 (innerBalanced group)) written.1 bound.1
        · exact traceNode_slots headBalanced group limit depth leading _

/-- Each value is bound by the node at its slot's address. -/
theorem binds_of_mem_traceBoundAll (limit : Nat) (nodes : List Node) :
    ∀ depth parent place s v, (s, v) ∈ (traceBoundAll limit depth parent place nodes).written →
      ∃ i below n, s.address = parent ++ (place + i) :: below ∧
        nodeAt? nodes (i :: below) = some n ∧ Binds n s.item v := by
  induction nodes using forest_induction with
  | nil => intro _ _ _ _ _ member; cases member
  | cons n rest inner after =>
      intro depth parent place s v member
      rw [traceBoundAll] at member
      rcases Emitted.mem_followedBy member with head | later
      · by_cases group : n.predicate = .group
        · have headInner : (s, v) ∈
              (traceBoundAll limit (depth + 1) (parent ++ [place]) 0 n.children).written := by
            obtain ⟨conjunction, key, predicate, value, children⟩ := n
            cases group
            simp only [traceBoundNode] at head
            split at head
            · cases head
            · exact head
          obtain ⟨i, below, m, address, found, binds⟩ := inner _ _ _ _ _ headInner
          refine ⟨0, i :: below, m, ?_, ?_, binds⟩
          · simpa using address
          · rw [nodeAt?_group rest group]
            exact found
        · have headOwn : (s, v) ∈
              itemized (parent ++ [place]) (bindNode limit depth n).written := by
            obtain ⟨conjunction, key, predicate, value, children⟩ := n
            cases predicate with
            | group => exact absurd rfl group
            | _ => exact head
          obtain ⟨address, atItem⟩ := mem_itemized.mp headOwn
          exact ⟨0, [], n, address, rfl, binds_of_mem_bindNode group atItem⟩
      · obtain ⟨i, below, m, address, found, binds⟩ := after _ _ _ _ _ later
        refine ⟨i + 1, below, m, ?_, ?_, binds⟩
        · rw [address, Nat.add_assoc, Nat.add_comm 1 i]
        · rw [nodeAt?_succ]
          exact found

/-! ## Alignment -/

/-- The text of a tree before its placeholders are spelled. -/
def markedText (limit : Nat) (nodes : List Node) : List Mark :=
  layOutMarked (traceAll limit 0 false [] 0 nodes).written

/-- The slots of the placeholders, in the order of the text. -/
def placeholderSlots (limit : Nat) (nodes : List Node) : List Slot :=
  (markedText limit nodes).filterMap Mark.slot?

/-- The bound values with their slots, in the order of binding. -/
def boundValues (limit : Nat) (nodes : List Node) : List (Slot × Value) :=
  (traceBoundAll limit 0 [] 0 nodes).written

/-- What was compiled from a tree is its marked text and its bound values, and at each
place the two stand for one slot of one node. -/
structure Aligned (dialect : Dialect) (limit : Nat) (nodes : List Node) (c : Compiled) :
    Prop where
  text : c.sql.toList = fill dialect 0 ((markedText limit nodes).map Mark.piece)
  params : c.params = (boundValues limit nodes).map Prod.snd
  holes : c.placeholders = (placeholderSlots limit nodes).length
  counts : c.placeholders = c.params.length
  sources : ∀ k < c.placeholders, ∃ slot n v,
    (placeholderSlots limit nodes)[k]? = some slot ∧
      (boundValues limit nodes)[k]? = some (slot, v) ∧
      nodeAt? nodes slot.address = some n ∧ Binds n slot.item v

theorem placeholderSlots_eq {limit : Nat} {nodes : List Node}
    (balanced : ∀ n, Reached n nodes → n.Balanced)
    (bound : (bindings limit nodes).failure = none) (written : (emit limit nodes).failure = none) :
    placeholderSlots limit nodes = (boundValues limit nodes).map Prod.fst := by
  have traced : (traceAll limit 0 false [] 0 nodes).failure = none :=
    (congrArg Emitted.failure (traceAll_map_snd limit nodes 0 false [] 0)).trans written
  have tracedBound : (traceBoundAll limit 0 [] 0 nodes).failure = none :=
    (congrArg Emitted.failure (traceBoundAll_map_snd limit nodes 0 [] 0)).trans bound
  rw [placeholderSlots, markedText, layOutMarked_slots]
  exact traceAll_slots limit nodes 0 false [] 0 balanced traced tracedBound

theorem aligned_of_compileUnfiltered {dialect : Dialect} {limit : Nat} {nodes : List Node}
    {c : Compiled} (compiled : compileUnfiltered dialect limit nodes = .ok c)
    (balanced : ∀ n, Reached n nodes → n.Balanced) : Aligned dialect limit nodes c := by
  obtain ⟨bound, written, rfl⟩ := compileUnfiltered_eq_ok_iff.mp compiled
  have tokens : (markedText limit nodes).map Mark.piece = layOut (emit limit nodes).written := by
    rw [markedText, layOutMarked_map_piece]
    exact congrArg (layOut ·.written) (traceAll_map_snd limit nodes 0 false [] 0)
  have values : (boundValues limit nodes).map Prod.snd = (bindings limit nodes).written :=
    congrArg Emitted.written (traceBoundAll_map_snd limit nodes 0 [] 0)
  have slots := placeholderSlots_eq balanced bound written
  have holes : (layOut (emit limit nodes).written).count .hole =
      (placeholderSlots limit nodes).length := by
    rw [← tokens, count_hole_map_piece, placeholderSlots]
  have lengths : (placeholderSlots limit nodes).length = (boundValues limit nodes).length := by
    rw [slots, List.length_map]
  refine ⟨?_, values.symm, holes, ?_, ?_⟩
  · rw [tokens, String.toList_ofList]
  · rw [← values, List.length_map, ← lengths]
    exact holes
  · intro k inText
    have inValues : k < (boundValues limit nodes).length := by
      rw [← lengths, ← holes]
      exact inText
    rcases found : (boundValues limit nodes)[k] with ⟨slot, v⟩
    have atPlace : (boundValues limit nodes)[k]? = some (slot, v) := by
      rw [List.getElem?_eq_getElem inValues, found]
    obtain ⟨i, below, n, address, atAddress, binds⟩ :=
      binds_of_mem_traceBoundAll limit nodes 0 [] 0 slot v (List.mem_of_getElem? atPlace)
    refine ⟨slot, n, v, ?_, atPlace, ?_, binds⟩
    · rw [slots, List.getElem?_map, atPlace]
      rfl
    · rw [address, List.nil_append, Nat.zero_add]
      exact atAddress

/-- **Placeholders and values are aligned.**  Where every fragment has as many question
marks as values, the `k`-th placeholder of a rendered tree and the `k`-th bound value come
from one condition.  A compiled tree is rendered after filtering, and the same holds of
what filtering leaves. -/
theorem placeholders_aligned_with_params :
    (∀ (dialect : Dialect) (limit : Nat) (nodes : List Node) (c : Compiled),
      compileUnfiltered dialect limit nodes = .ok c → (∀ n, Reached n nodes → n.Balanced) →
        Aligned dialect limit nodes c) ∧
    ∀ (ctx : Context) (dialect : Dialect) (nodes left : List Node) (c : Compiled),
      compile ctx dialect nodes = (left, .ok c) → (∀ n, Reached n left → n.Balanced) →
        Aligned dialect ctx.limit left c := by
  refine ⟨fun dialect limit nodes c compiled balanced =>
    aligned_of_compileUnfiltered compiled balanced, ?_⟩
  intro ctx dialect nodes left c compiled balanced
  exact aligned_of_compileUnfiltered (compile_eq_ok_iff.mp compiled).2.2 balanced

/-- A comparison beside a group of a fragment with two items and a comparison with the
same value. -/
def alignmentExample : List Node :=
  [⟨.none, .path ⟨none, "age"⟩, .compare .gt, .int 18, []⟩,
    ⟨.and, .none, .group, .null,
      [⟨.none, .raw " a.b = ? OR a.c > ?", .fragment, .array [.int 18, .enum "BIG"], []⟩,
        ⟨.or, .path ⟨some "a", "d"⟩, .compare .ne, .int 18, []⟩]⟩]

theorem balanced_alignmentExample : ∀ n, Reached n alignmentExample → n.Balanced := by
  simp only [alignmentExample, forall_reached_cons_iff, Node.Balanced, not_reached_nil,
    false_imp_iff, implies_true, and_true]
  decide

theorem placeholders_aligned_with_params_nested :
    Aligned .postgres 1 alignmentExample
        ⟨"age > $1 AND ( a.b = $2 OR a.c > $3 OR a.d <> $4 )",
          [.int 18, .int 18, .string "BIG", .int 18], 4⟩ ∧
      Aligned .question 1 alignmentExample
        ⟨"age > ? AND ( a.b = ? OR a.c > ? OR a.d <> ? )",
          [.int 18, .int 18, .string "BIG", .int 18], 4⟩ :=
  ⟨placeholders_aligned_with_params.1 .postgres 1 alignmentExample _ rfl
      balanced_alignmentExample,
    placeholders_aligned_with_params.2
      ⟨fun _ => some ⟨"Item", fun _ => some .integer, fun _ v => v.isZero⟩, "Item", [],
        .epochMillis, 1⟩ .question alignmentExample _ _ rfl balanced_alignmentExample⟩

end Criteria
