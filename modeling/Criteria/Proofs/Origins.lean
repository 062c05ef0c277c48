/-
# Criteria.Proofs.Origins -- where the nodes that filtering leaves come from

Each node that filtering leaves was there before, with the same conjunction, key and
predicate, and with its value unless it is a comparison, whose value may be coerced
(`Survives`).  `Origins` leads from the addresses of what is left to the addresses of the
forest: nodes keep their parents and their order, so what is missing is missing with
everything below it.  Also a fault in the middle of the walk leaves nothing else
(`filter_only_deletes_and_coerces`).

There are never more nodes than before, and the difference that a report shows is the number
of nodes that went.
-/
import Criteria.CommandLine.Run
import Criteria.Proofs.NormalForm

namespace Criteria

set_option autoImplicit false

/-! ## Addresses below all nodes -/

/-- The node at an address; all nodes are gone down into here, and not groups only. -/
def anyAt? : List Node → Address → Option Node
  | _, [] => none
  | nodes, [place] => nodes[place]?
  | nodes, place :: below => nodes[place]?.bind fun n => anyAt? n.children below

theorem anyAt?_nil (address : Address) (m : Node) : anyAt? [] address ≠ some m := by
  rcases address with _ | ⟨place, _ | ⟨next, below⟩⟩ <;> simp [anyAt?]

/-- The node at an address is the first one, or one below it, or one of those after it. -/
theorem anyAt?_cons_iff {m first : Node} {rest : List Node} {address : Address} :
    anyAt? (first :: rest) address = some m ↔
      (address = [0] ∧ m = first) ∨
      (∃ below, address = 0 :: below ∧ anyAt? first.children below = some m) ∨
      ∃ place below, address = (place + 1) :: below ∧ anyAt? rest (place :: below) = some m := by
  rcases address with _ | ⟨_ | place, _ | ⟨next, below⟩⟩
  · simp [anyAt?]
  · simp [anyAt?, @eq_comm _ first]
  · simp [anyAt?]
  · simp [anyAt?, and_assoc]
  · simp [anyAt?, and_assoc]

namespace Address

/-- Leads from addresses to addresses: what stands below an address stands below the one it
leads to, and the order stays. -/
structure Guide (origin : Address → Address) : Prop where
  root : origin [] = []
  below : ∀ address place, ∃ next, origin (address ++ [place]) = origin address ++ [next]
  before : ∀ first second, first.Before second → (origin first).Before (origin second)

/-- The same address behind one more node. -/
def later : Address → Address
  | [] => []
  | place :: below => (place + 1) :: below

theorem before_later {first second : Address} (before : first.Before second) :
    first.later.Before second.later := by
  cases before with
  | nil => exact .nil
  | rel less => exact .rel (Nat.succ_lt_succ less)
  | cons inner => exact .cons inner

theorem later_append {address : Address} (some_ : address ≠ []) (place : Nat) :
    Address.later (address ++ [place]) = address.later ++ [place] := by
  cases address with
  | nil => exact absurd rfl some_
  | cons first below => rfl

/-- The addresses below the first node led one way, and those behind it another. -/
def fork (inside behind : Address → Address) : Address → Address
  | [] => []
  | 0 :: below => 0 :: inside below
  | (place + 1) :: below => (behind (place :: below)).later

namespace Guide

variable {origin inside behind : Address → Address}

theorem id : Guide id where
  root := rfl
  below := fun _ place => ⟨place, rfl⟩
  before := fun _ _ before => before

theorem ne_nil (guide : Guide origin) (place : Nat) (below : Address) :
    origin (place :: below) ≠ [] := by
  intro nothing
  have front : place :: below =
      (place :: below).dropLast ++ [(place :: below).getLast (List.cons_ne_nil _ _)] :=
    (List.dropLast_concat_getLast _).symm
  obtain ⟨next, led⟩ := guide.below (place :: below).dropLast
    ((place :: below).getLast (List.cons_ne_nil _ _))
  rw [← front, nothing] at led
  exact List.cons_ne_nil _ _ (List.append_eq_nil_iff.mp led.symm).2

/-- Nothing stands before the address of no node. -/
theorem nil_before (guide : Guide origin) (place : Nat) (below : Address) :
    Address.Before [] (origin (place :: below)) := by
  cases led : origin (place :: below) with
  | nil => exact absurd led (guide.ne_nil place below)
  | cons next more => exact .nil

theorem later (guide : Guide origin) : Guide fun address => (origin address).later where
  root := by
    rw [guide.root]
    rfl
  below := by
    intro address place
    obtain ⟨next, led⟩ := guide.below address place
    cases address with
    | nil =>
        rw [guide.root] at led ⊢
        exact ⟨next + 1, by rw [led]; rfl⟩
    | cons first below =>
        exact ⟨next, by rw [led, later_append (guide.ne_nil first below)]⟩
  before := fun first second before => before_later (guide.before first second before)

theorem fork (inner : Guide inside) (outer : Guide behind) : Guide (fork inside behind) where
  root := rfl
  below := by
    intro address place
    match address with
    | [] =>
        cases place with
        | zero => exact ⟨0, congrArg (0 :: ·) inner.root⟩
        | succ place =>
            obtain ⟨next, led⟩ := outer.below [] place
            rw [outer.root] at led
            exact ⟨next + 1, congrArg Address.later led⟩
    | 0 :: below =>
        obtain ⟨next, led⟩ := inner.below below place
        exact ⟨next, by rw [List.cons_append, Address.fork, led]; rfl⟩
    | (first + 1) :: below =>
        obtain ⟨next, led⟩ := outer.below (first :: below) place
        refine ⟨next, ?_⟩
        rw [List.cons_append, Address.fork, ← List.cons_append, led,
          later_append (outer.ne_nil first below)]
        rfl
  before := by
    intro first second before
    match first, second, before with
    | [], 0 :: _, _ => exact .nil
    | [], (place + 1) :: below, _ =>
        exact before_later (outer.nil_before place below)
    | 0 :: _, 0 :: _, .cons inside => exact .cons (inner.before _ _ inside)
    | 0 :: _, (place + 1) :: below, _ =>
        rw [Address.fork, Address.fork]
        cases led : behind (place :: below) with
        | nil => exact absurd led (outer.ne_nil place below)
        | cons next more => exact .rel next.succ_pos
    | (_ + 1) :: _, (_ + 1) :: _, .cons inside =>
        exact before_later (outer.before _ _ (.cons inside))
    | (_ + 1) :: _, (_ + 1) :: _, .rel less =>
        exact before_later (outer.before _ _ (.rel (Nat.lt_of_succ_lt_succ less)))

end Guide

end Address

/-! ## What is left of a node, and of a forest -/

variable {ctx : Context}

/-- Only a comparison is restated with another value. -/
theorem Context.Restates.eq_value {n : Node} {v : Value} (restates : ctx.Restates n v)
    (other : n.predicate.isComparison = false) : v = n.value := by
  cases restates with
  | same => rfl
  | coerced compares =>
      rw [compares] at other
      cases other

/-- `m` is what is left of `n`, those below it aside. -/
structure Survives (ctx : Context) (n m : Node) : Prop where
  conjunction : m.conjunction = n.conjunction
  key : m.key = n.key
  predicate : m.predicate = n.predicate
  /-- its value, or of a comparison the coercion of its value to the type of its column -/
  value : ctx.Restates n m.value
  unchanged : n.predicate.isComparison = false → m.value = n.value

theorem survives_of_restates {n : Node} {v : Value} {below : List Node}
    (restates : ctx.Restates n v) : Survives ctx n { n with value := v, children := below } where
  conjunction := rfl
  key := rfl
  predicate := rfl
  value := restates
  unchanged := restates.eq_value

/-- Each node of `left` is what is left of the node of `nodes` that `origin` leads to. -/
structure Origins (ctx : Context) (nodes left : List Node) (origin : Address → Address) : Prop
    extends Address.Guide origin where
  node : ∀ address m, anyAt? left address = some m →
    ∃ n, anyAt? nodes (origin address) = some n ∧ Survives ctx n m

/-- The nodes of a list are those of a longer one, one place later. -/
theorem anyAt?_later {nodes : List Node} {address : Address} {m : Node} (first : Node)
    (found : anyAt? nodes address = some m) :
    anyAt? (first :: nodes) address.later = some m := by
  cases address with
  | nil => cases found
  | cons place below => exact anyAt?_cons_iff.mpr (.inr (.inr ⟨place, below, rfl, found⟩))

/-- **What is left of a thinned forest has its origin there.** -/
theorem Thinned.exists_origins {nodes left : List Node} (thinned : Thinned ctx nodes left) :
    ∃ origin, Origins ctx nodes left origin := by
  induction thinned with
  | nil => exact ⟨id, .id, fun address m found => absurd found (anyAt?_nil address m)⟩
  | @drop n rest left _ after =>
      obtain ⟨origin, origins⟩ := after
      refine ⟨_, origins.later, fun address m found => ?_⟩
      obtain ⟨source, there, survives⟩ := origins.node address m found
      exact ⟨source, anyAt?_later n there, survives⟩
  | @keep n v below rest left restates _ _ inner after =>
      obtain ⟨inside, innerOrigins⟩ := inner
      obtain ⟨behind, outerOrigins⟩ := after
      refine ⟨_, innerOrigins.fork outerOrigins.toGuide, fun address m found => ?_⟩
      rcases anyAt?_cons_iff.mp found with
        ⟨rfl, rfl⟩ | ⟨down, rfl, under⟩ | ⟨place, down, rfl, later⟩
      · refine ⟨n, ?_, survives_of_restates restates⟩
        rw [Address.fork, innerOrigins.root]
        rfl
      · obtain ⟨source, there, survives⟩ := innerOrigins.node down m under
        exact ⟨source, anyAt?_cons_iff.mpr (.inr (.inl ⟨_, rfl, there⟩)), survives⟩
      · obtain ⟨source, there, survives⟩ := outerOrigins.node _ m later
        exact ⟨source, anyAt?_later n there, survives⟩

/-- A thinned forest has no more nodes. -/
theorem Thinned.countAll_le {nodes left : List Node} (thinned : Thinned ctx nodes left) :
    Node.countAll left ≤ Node.countAll nodes := by
  induction thinned with
  | nil => exact Nat.le_refl _
  | drop _ after =>
      rw [Node.countAll]
      exact Nat.le_add_left_of_le after
  | @keep n v below rest left _ _ _ inner after =>
      obtain ⟨conjunction, key, predicate, value, children⟩ := n
      have fewer : Node.countAll below ≤ Node.countAll children := inner
      simp only [Node.countAll, Node.count]
      omega

/-! ## The theorem -/

open CommandLine in
/-- The last line of an explanation. -/
def prunedLine (colored : Bool) (pruned before : Nat) : String :=
  paint colored .heading (Nat.repr pruned) ++ " of " ++ Nat.repr before ++ " node(s) pruned"

open CommandLine in
/-- **Filtering only deletes and coerces**, also when a fault ends it: what is left has its
origin in the forest and no more nodes.  An explanation that comes to its end closes with the
number of nodes that went. -/
theorem filter_only_deletes_and_coerces :
    (∀ (ctx : Context) (nodes : List Node),
      (∃ origin, Origins ctx nodes (filter ctx nodes).nodes origin) ∧
        Node.countAll (filter ctx nodes).nodes ≤ Node.countAll nodes) ∧
    ∀ (sources : Sources) (l : Loaded) (tree : TreeArguments),
      (filter (contextOf l tree) l.nodes).failure = none →
        ∃ pruned, Node.countAll (filter (contextOf l tree) l.nodes).nodes + pruned =
            Node.countAll l.nodes ∧
          (runExplain sources l tree).2 = none ∧
          (runExplain sources l tree).1.getLast? =
            some (prunedLine sources.colored pruned (Node.countAll l.nodes)) := by
  have fewer : ∀ (ctx : Context) (nodes : List Node),
      Node.countAll (filter ctx nodes).nodes ≤ Node.countAll nodes := fun ctx nodes =>
    (filterAll_thinned ctx nodes 0).countAll_le
  refine ⟨fun ctx nodes => ⟨(filterAll_thinned ctx nodes 0).exists_origins, fewer ctx nodes⟩, ?_⟩
  intro sources l tree whole
  refine ⟨_, Nat.add_sub_of_le (fewer (contextOf l tree) l.nodes), ?_, ?_⟩
  · simp only [runExplain, whole]
  · simp only [runExplain, whole, afterLines, prunedLine]
    rw [List.getLast?_append, List.getLast?_append]
    rfl

/-- A comparison that goes, a group of which one comparison stays with an instant and another
goes, and a null check; `more` stands behind them. -/
def deletionExample (more : List Node) : List Node :=
  .ofPath ⟨none, "id"⟩ (.compare .eq) (.int 0) ::
    (Node.group [.ofPath ⟨some "u", "born"⟩ (.compare .lt) (.string "2020-01-01"),
      .ofPath ⟨none, "id"⟩ (.compare .ne) .null]).joined .and ::
    (Node.ofPath ⟨none, "born"⟩ (.nullCheck false) .null).joined .or :: more

/-- In a group of its own a field that is not declared ends the walk, when the comparison
before it is gone. -/
def haltedDeletionExample : List Node :=
  deletionExample [.group [.ofPath ⟨none, "id"⟩ (.compare .eq) (.int 0),
    .ofPath ⟨none, "email"⟩ (.compare .eq) (.int 1)]]

open CommandLine in
theorem filter_only_deletes_and_coerces_users :
    (filter (userSchema.context "users" [("u", "users")] 2) haltedDeletionExample).failure =
        some (.undeclaredField "users" "email") ∧
      (∃ origin, Origins (userSchema.context "users" [("u", "users")] 2) haltedDeletionExample
        (filter (userSchema.context "users" [("u", "users")] 2) haltedDeletionExample).nodes
          origin) ∧
      ∀ content : Except FileFault String,
        (runExplain ⟨fun _ => content, none, "", false⟩
            ⟨.standard, userSchema, deletionExample []⟩
            ⟨"where.json", "schema.json", "users", [("u", "users")]⟩).1.getLast? =
          some "2 of 5 node(s) pruned" := by
  obtain ⟨anywhere, reported⟩ := filter_only_deletes_and_coerces
  refine ⟨rfl, (anywhere _ haltedDeletionExample).1, fun content => ?_⟩
  obtain ⟨pruned, total, -, last⟩ := reported ⟨fun _ => content, none, "", false⟩
    ⟨.standard, userSchema, deletionExample []⟩
    ⟨"where.json", "schema.json", "users", [("u", "users")]⟩ rfl
  have sum : 3 + pruned = 5 := total
  obtain rfl : pruned = 2 := by omega
  exact last

end Criteria
