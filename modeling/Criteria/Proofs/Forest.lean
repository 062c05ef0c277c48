/-
# Criteria.Proofs.Forest -- going through a condition tree

A forest is taken apart at its first node: the children of that node are a forest,
and so are the nodes after it.  `forest_induction` says so once, and every fact
about a walk over a tree is proved by it.  `everyAll` lists the nodes of a forest, the
children of every node among them.

A rendering goes down into groups only.  `Reached` tells the nodes it comes to, and
`nodeAt?` finds one of them by its address, whose length is its level (`KindWithin`).  Of
some addresses in a list of nodes the first is found by looking at the first node, below it
and behind it (`Address.Parted`).
-/
import Criteria.Node

namespace Criteria

set_option autoImplicit false

/-- Induction over a forest, by its first node: its children and the nodes after it. -/
theorem forest_induction {motive : List Node → Prop} (nil : motive [])
    (cons : ∀ n rest, motive n.children → motive rest → motive (n :: rest)) :
    ∀ nodes, motive nodes
  | [] => nil
  | ⟨_, _, _, _, children⟩ :: rest =>
      cons _ rest (forest_induction nil cons children) (forest_induction nil cons rest)

/-! ## All nodes -/

mutual

/-- A node and all nodes below it. -/
def Node.every : Node → List Node
  | ⟨conjunction, key, predicate, v, children⟩ =>
      ⟨conjunction, key, predicate, v, children⟩ :: everyAll children

def everyAll : List Node → List Node
  | [] => []
  | n :: rest => n.every ++ everyAll rest

end

theorem everyAll_cons (n : Node) (rest : List Node) :
    everyAll (n :: rest) = n :: (everyAll n.children ++ everyAll rest) := by
  obtain ⟨conjunction, key, predicate, v, children⟩ := n
  rfl

theorem length_everyAll (nodes : List Node) :
    (everyAll nodes).length = Node.countAll nodes := by
  induction nodes using forest_induction with
  | nil => rfl
  | cons n rest inner after =>
      obtain ⟨conjunction, key, predicate, v, children⟩ := n
      have below : (everyAll children).length = Node.countAll children := inner
      rw [everyAll_cons, List.length_cons, List.length_append, below, after, Node.countAll,
        Node.count]
      omega

theorem forall_mem_everyAll_cons {P : Node → Prop} {n : Node} {rest : List Node} :
    (∀ m ∈ everyAll (n :: rest), P m) ↔
      P n ∧ (∀ m ∈ everyAll n.children, P m) ∧ ∀ m ∈ everyAll rest, P m := by
  rw [everyAll_cons, List.forall_mem_cons, List.forall_mem_append]

theorem everyAll_eq_flatMap (nodes : List Node) : everyAll nodes = nodes.flatMap Node.every := by
  induction nodes with
  | nil => rfl
  | cons n rest ih => rw [everyAll, ih, List.flatMap_cons]

theorem Node.mem_every_self (n : Node) : n ∈ n.every := by
  cases n
  exact List.mem_cons_self

theorem Node.mem_every_of_children {n m : Node} (below : m ∈ everyAll n.children) : m ∈ n.every := by
  cases n
  exact List.mem_cons_of_mem _ below

/-! ## Nodes that a rendering comes to -/

/-- `n` stands in the list or below its groups. -/
inductive Reached (n : Node) : List Node → Prop where
  | here {nodes : List Node} : n ∈ nodes → Reached n nodes
  | inside {g : Node} {nodes : List Node} :
      g ∈ nodes → g.predicate = .group → Reached n g.children → Reached n nodes

@[simp] theorem not_reached_nil {n : Node} : ¬ Reached n [] := by
  rintro (member | ⟨member, _, _⟩) <;> cases member

theorem reached_cons_iff {n first : Node} {rest : List Node} :
    Reached n (first :: rest) ↔
      n = first ∨ (first.predicate = .group ∧ Reached n first.children) ∨ Reached n rest := by
  constructor
  · rintro (member | ⟨member, group, inner⟩)
    · rcases List.mem_cons.mp member with rfl | inRest
      · exact .inl rfl
      · exact .inr (.inr (.here inRest))
    · rcases List.mem_cons.mp member with rfl | inRest
      · exact .inr (.inl ⟨group, inner⟩)
      · exact .inr (.inr (.inside inRest group inner))
  · rintro (rfl | ⟨group, inner⟩ | after)
    · exact .here List.mem_cons_self
    · exact .inside List.mem_cons_self group inner
    · cases after with
      | here member => exact .here (List.mem_cons_of_mem _ member)
      | inside member group inner => exact .inside (List.mem_cons_of_mem _ member) group inner

/-- What holds of all nodes reached holds of the first, of those below it when it is
a group, and of those after it. -/
theorem forall_reached_cons_iff {P : Node → Prop} {first : Node} {rest : List Node} :
    (∀ n, Reached n (first :: rest) → P n) ↔
      P first ∧ (first.predicate = .group → ∀ n, Reached n first.children → P n) ∧
        ∀ n, Reached n rest → P n := by
  constructor
  · intro all
    refine ⟨all _ (reached_cons_iff.mpr (.inl rfl)), fun group n inner => ?_, fun n after => ?_⟩
    · exact all n (reached_cons_iff.mpr (.inr (.inl ⟨group, inner⟩)))
    · exact all n (reached_cons_iff.mpr (.inr (.inr after)))
  · rintro ⟨head, inner, after⟩ n reached
    rcases reached_cons_iff.mp reached with rfl | ⟨group, h⟩ | h
    · exact head
    · exact inner group n h
    · exact after n h

/-! ## Addresses -/

/-- The way to a node: its place in the list, then its place among the children of
each group on the way down. -/
abbrev Address : Type := List Nat

/-- The node at an address; only groups are gone down into. -/
def nodeAt? : List Node → Address → Option Node
  | _, [] => none
  | nodes, [place] => nodes[place]?
  | nodes, place :: rest =>
      nodes[place]?.bind fun n => if n.predicate = .group then nodeAt? n.children rest else none

theorem nodeAt?_succ (first : Node) (rest : List Node) (place : Nat) (below : Address) :
    nodeAt? (first :: rest) ((place + 1) :: below) = nodeAt? rest (place :: below) := by
  cases below <;> simp [nodeAt?]

theorem nodeAt?_group {first : Node} (rest : List Node) (group : first.predicate = .group)
    (place : Nat) (below : Address) :
    nodeAt? (first :: rest) (0 :: place :: below) = nodeAt? first.children (place :: below) := by
  simp [nodeAt?, group]

/-- The node at an address is the first one, or one below it when it is a group, or one of
those after it. -/
theorem nodeAt?_cons_iff {n first : Node} {rest : List Node} {address : Address} :
    nodeAt? (first :: rest) address = some n ↔
      (address = [0] ∧ n = first) ∨
      (∃ below, address = 0 :: below ∧ first.predicate = .group ∧
        nodeAt? first.children below = some n) ∨
      ∃ place below, address = (place + 1) :: below ∧ nodeAt? rest (place :: below) = some n := by
  rcases address with _ | ⟨_ | place, below⟩
  · simp [nodeAt?]
  · cases below with
    | nil => simp [nodeAt?, eq_comm]
    | cons place below =>
        by_cases group : first.predicate = .group <;> simp [nodeAt?, group]
  · rw [nodeAt?_succ]
    constructor
    · exact fun found => .inr (.inr ⟨place, below, rfl, found⟩)
    · rintro (⟨⟨⟩, -⟩ | ⟨_, ⟨⟩, -⟩ | ⟨_, _, ⟨⟩, found⟩)
      exact found

/-! ## Levels -/

/-- The nodes that `kind` tells stand within the limit, in a forest `depth` levels down.
Only those count that a rendering can come to. -/
def KindWithin (kind : Node → Prop) (limit depth : Nat) (nodes : List Node) : Prop :=
  ∀ address n, nodeAt? nodes address = some n → kind n → depth + address.length ≤ limit

theorem kindWithin_nil (kind : Node → Prop) (limit depth : Nat) :
    KindWithin kind limit depth [] := by
  intro address n found
  rcases address with _ | ⟨place, _ | ⟨next, below⟩⟩ <;> simp [nodeAt?] at found

/-- The first node asks for itself and, when it is a group, for those a level below. -/
theorem kindWithin_cons_iff {kind : Node → Prop} {limit depth : Nat} {first : Node}
    {rest : List Node} :
    KindWithin kind limit depth (first :: rest) ↔
      (kind first → depth + 1 ≤ limit) ∧
        (first.predicate = .group → KindWithin kind limit (depth + 1) first.children) ∧
          KindWithin kind limit depth rest := by
  constructor
  · intro within
    refine ⟨?_, ?_, ?_⟩
    · intro told
      exact within [0] first (nodeAt?_cons_iff.mpr (.inl ⟨rfl, rfl⟩)) told
    · intro group address n found told
      have inside : nodeAt? (first :: rest) (0 :: address) = some n :=
        nodeAt?_cons_iff.mpr (.inr (.inl ⟨address, rfl, group, found⟩))
      have deeper : depth + (0 :: address).length ≤ limit := within _ n inside told
      rw [List.length_cons] at deeper
      omega
    · intro address n found told
      cases address with
      | nil => simp [nodeAt?] at found
      | cons place below =>
          have later : nodeAt? (first :: rest) ((place + 1) :: below) = some n :=
            nodeAt?_cons_iff.mpr (.inr (.inr ⟨place, below, rfl, found⟩))
          exact within ((place + 1) :: below) n later told
  · rintro ⟨own, inner, behind⟩ address n found told
    rcases nodeAt?_cons_iff.mp found with
      ⟨rfl, rfl⟩ | ⟨below, rfl, group, inside⟩ | ⟨place, below, rfl, later⟩
    · exact own told
    · have deeper : depth + 1 + below.length ≤ limit := inner group below n inside told
      rw [List.length_cons]
      omega
    · exact behind (place :: below) n later told

/-! ## The first of some addresses -/

/-- Addresses stand in the order in which a walk comes to the nodes: a node before those
below it, and these before the nodes after it. -/
def Address.Before : Address → Address → Prop :=
  List.Lex (· < ·)

/-- The first of the addresses that `all` tells. -/
structure Address.First (all : Address → Prop) (address : Address) : Prop where
  told : all address
  first : ∀ other, all other → other = address ∨ address.Before other

/-- `all` tells addresses in a list: with `own` the one of its first node, with `below`
those below it and with `behind` those in the rest of the list. -/
def Address.Parted (all : Address → Prop) (own : Prop) (below behind : Address → Prop) : Prop :=
  ∀ address, all address ↔
    (address = [0] ∧ own) ∨ (∃ b, address = 0 :: b ∧ below b) ∨
      ∃ place b, address = (place + 1) :: b ∧ behind (place :: b)

namespace Address.Parted

variable {all below behind : Address → Prop} {own : Prop}

theorem first_own (parted : Parted all own below behind) (here : own) : First all [0] where
  told := (parted _).mpr (.inl ⟨rfl, here⟩)
  first := by
    intro other told
    rcases (parted other).mp told with ⟨rfl, -⟩ | ⟨b, rfl, -⟩ | ⟨place, b, rfl, -⟩
    · exact .inl rfl
    · cases b with
      | nil => exact .inl rfl
      | cons place b => exact .inr (.cons .nil)
    · exact .inr (.rel place.succ_pos)

theorem first_below (parted : Parted all own below behind) (passed : ¬ own) {b : Address}
    (inner : First below b) : First all (0 :: b) where
  told := (parted _).mpr (.inr (.inl ⟨b, rfl, inner.told⟩))
  first := by
    intro other told
    rcases (parted other).mp told with ⟨-, here⟩ | ⟨c, rfl, inside⟩ | ⟨place, c, rfl, -⟩
    · exact absurd here passed
    · exact (inner.first c inside).imp (congrArg (0 :: ·)) .cons
    · exact .inr (.rel place.succ_pos)

theorem first_behind (parted : Parted all own below behind) (passed : ¬ own)
    (clear : ∀ b, ¬ below b) {place : Nat} {b : Address} (later : First behind (place :: b)) :
    First all ((place + 1) :: b) where
  told := (parted _).mpr (.inr (.inr ⟨place, b, rfl, later.told⟩))
  first := by
    intro other told
    rcases (parted other).mp told with ⟨-, here⟩ | ⟨c, rfl, inside⟩ | ⟨next, c, rfl, found⟩
    · exact absurd here passed
    · exact absurd inside (clear c)
    · rcases later.first _ found with same | before
      · cases same
        exact .inl rfl
      · cases before with
        | rel less => exact .inr (.rel (Nat.succ_lt_succ less))
        | cons less => exact .inr (.cons less)

end Address.Parted

end Criteria
