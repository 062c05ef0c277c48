/-
# Criteria.Proofs.Renaming -- a column by any of its names

A column may be named in several ways: behind one alias or another, behind the name of its
table where that is no alias, and without any when it is of the primary table.  Filtering sees
a path only through its field and the name of its table (`Context.SameColumn`), so a forest in
which columns go by other names is filtered in step with it (`filter_renamed`).  Only the fault
of an empty list shows the name that the condition has.

Each condition may have a name of its own, as in `Node.Rekeyed`; when all are renamed by one
function (`renamedAll`), what is left is renamed by it as well.
-/
import Criteria.Proofs.Lockstep
import Criteria.Proofs.NormalForm

namespace Criteria

set_option autoImplicit false

variable {ctx : Context}

/-! ## Names of one column -/

/-- The two paths name one field of one table. -/
structure Context.SameColumn (ctx : Context) (p q : Path) : Prop where
  field : q.field = p.field
  schemaName : ctx.schemaName q = ctx.schemaName p

/-- The two keys are one key, or paths that name one column. -/
inductive Context.SameKey (ctx : Context) : Key → Key → Prop where
  | same (key : Key) : SameKey ctx key key
  | path {p q : Path} : ctx.SameColumn p q → SameKey ctx (.path p) (.path q)

namespace Context

/-- **Field and table are all that is found of a key.** -/
theorem locate_of_sameKey {key key' : Key} (same : ctx.SameKey key key') :
    ctx.locate key = ctx.locate key' := by
  cases same with
  | same => rfl
  | path column => rw [locate, locate, resolve, resolve, column.field, column.schemaName]

theorem judgeComparison_of_locate {key key' : Key} (located : ctx.locate key = ctx.locate key')
    (v : Value) : ctx.judgeComparison key v = ctx.judgeComparison key' v := by
  rw [judgeComparison, judgeComparison, located]

/-- A list that is not empty is judged by what is found of its key. -/
theorem judgeMembership_of_locate {key key' : Key} (located : ctx.locate key = ctx.locate key')
    {v : Value} (items : v.members ≠ []) :
    ctx.judgeMembership key v = ctx.judgeMembership key' v := by
  have both : members? key v = members? key' v := by
    unfold members?
    split
    · contradiction
    · rfl
  rw [judgeMembership, judgeMembership, both, located]

theorem judgeMembership_of_empty (key : Key) {v : Value} (empty : v.members = []) :
    ctx.judgeMembership key v = .error (.emptyMembership key.text) := by
  simp only [judgeMembership, members?, empty, bind, Except.bind]

end Context

/-! ## Forests under other names -/

/-- The nodes differ in their keys at most, in the way that `K` tells. -/
structure Node.Rekeyed (K : Key → Key → Prop) (n m : Node) : Prop where
  conjunction : m.conjunction = n.conjunction
  key : K n.key m.key
  predicate : m.predicate = n.predicate
  value : m.value = n.value

/-- The faults differ at most in the name of a condition whose list is empty. -/
inductive Fault.Rekeyed (K : Key → Key → Prop) : Fault → Fault → Prop where
  | same (f : Fault) : Fault.Rekeyed K f f
  | emptyMembership {key key' : Key} :
      K key key' → Fault.Rekeyed K (.emptyMembership key.text) (.emptyMembership key'.text)

variable {K : Key → Key → Prop}

/-- A node under another name of its column is judged as before. -/
theorem judgedAlike_of_rekeyed (names : ∀ key key', K key key' → ctx.SameKey key key') {n m : Node}
    (rekeyed : n.Rekeyed K m) : ctx.JudgedAlike (Node.Rekeyed K) (Fault.Rekeyed K) n m := by
  obtain ⟨conjunction, key, predicate, value⟩ := rekeyed
  have located := Context.locate_of_sameKey (names _ _ key)
  by_cases empty : n.predicate.isMembership = true ∧ n.value.members = []
  · obtain ⟨list, nothing⟩ := empty
    cases kind : n.predicate with
    | member negated =>
        refine .refused (f := .emptyMembership n.key.text) (g := .emptyMembership m.key.text) ?_ ?_
          (.emptyMembership key)
        · rw [kind]
          exact Context.judgeMembership_of_empty n.key nothing
        · rw [predicate, value, kind]
          exact Context.judgeMembership_of_empty m.key nothing
    | _ =>
        rw [kind] at list
        cases list
  · refine .of_eq ?_ .same fun _ _ _ => ⟨conjunction, key, predicate, rfl⟩
    rw [predicate, value]
    cases kind : n.predicate with
    | compare op => exact (Context.judgeComparison_of_locate located n.value).symm
    | member negated =>
        rw [kind] at empty
        refine (Context.judgeMembership_of_locate located ?_).symm
        exact fun nothing => empty ⟨rfl, nothing⟩
    | _ => rfl

theorem respects_rekeyed (names : ∀ key key', K key key' → ctx.SameKey key key') :
    ctx.Respects (Node.Rekeyed K) (Fault.Rekeyed K) where
  predicate := fun _ _ rekeyed => rekeyed.predicate.symm
  judged := fun _ _ rekeyed => judgedAlike_of_rekeyed names rekeyed
  nesting := .same _

/-! ## One renaming for all -/

/-- A path is renamed; any other key has no path in it. -/
def Key.renamed (r : Path → Path) : Key → Key
  | .path p => .path (r p)
  | key => key

mutual

/-- A node and all nodes below it with their paths renamed. -/
def Node.renamed (r : Path → Path) : Node → Node
  | ⟨conjunction, key, predicate, v, children⟩ =>
      ⟨conjunction, key.renamed r, predicate, v, renamedAll r children⟩

def renamedAll (r : Path → Path) : List Node → List Node
  | [] => []
  | n :: rest => n.renamed r :: renamedAll r rest

end

theorem Node.renamed_eq (r : Path → Path) (n : Node) :
    n.renamed r = { n with key := n.key.renamed r, children := renamedAll r n.children } := by
  cases n
  rfl

/-- The key is renamed, and is a key of the same column. -/
structure Key.RenamedTo (ctx : Context) (r : Path → Path) (key key' : Key) : Prop where
  renamed : key' = key.renamed r
  column : ctx.SameKey key key'

/-- A renaming that keeps the columns of a forest gives a forest under other names. -/
theorem paired_renamedAll {r : Path → Path} (nodes : List Node)
    (keeps : ∀ n ∈ everyAll nodes, ∀ p, n.key = .path p → ctx.SameColumn p (r p)) :
    Paired (Node.Rekeyed (Key.RenamedTo ctx r)) nodes (renamedAll r nodes) := by
  induction nodes using forest_induction with
  | nil => exact .nil
  | cons n rest inner after =>
      obtain ⟨own, below, behind⟩ := forall_mem_everyAll_cons.mp keeps
      have column : ctx.SameKey n.key (n.key.renamed r) := by
        cases key : n.key with
        | path p => exact .path (own p key)
        | _ => exact .same _
      rw [renamedAll, Node.renamed_eq]
      exact .cons ⟨rfl, ⟨rfl, column⟩, rfl, rfl⟩ (inner below) (after behind)

/-- It is the only such forest. -/
theorem eq_renamedAll_of_paired {r : Path → Path} {nodes others : List Node}
    (paired : Paired (Node.Rekeyed (Key.RenamedTo ctx r)) nodes others) :
    others = renamedAll r nodes := by
  induction paired with
  | nil => rfl
  | @cons n m rest others rekeyed _ _ inner after =>
      have renamed : m = n.renamed r := by
        obtain ⟨conjunction, key, predicate, value, children⟩ := m
        obtain ⟨rfl, ⟨rfl, -⟩, rfl, rfl⟩ := rekeyed
        rw [Node.renamed_eq, ← inner]
      rw [renamedAll, ← renamed, ← after]

/-! ## The theorem -/

/-- **Filtering sees a key through its column only.**  Over a forest in which each condition
may go by another name of its column it goes in step: the same nodes are dropped, and those
that stay have the same values under their own names.  When one function renames all paths,
what is left is renamed by it.  The only fault that shows a name is that of an empty list. -/
theorem filter_renamed (ctx : Context) (nodes : List Node) :
    (∀ others, Paired (Node.Rekeyed ctx.SameKey) nodes others →
      Filtered.InStep ctx (Node.Rekeyed ctx.SameKey) (Fault.Rekeyed ctx.SameKey) nodes others
        (filter ctx nodes) (filter ctx others)) ∧
    ∀ r : Path → Path,
      (∀ n ∈ everyAll nodes, ∀ p, n.key = .path p → ctx.SameColumn p (r p)) →
        (filter ctx (renamedAll r nodes)).nodes = renamedAll r (filter ctx nodes).nodes ∧
          Option.Rel (Fault.Rekeyed (Key.RenamedTo ctx r)) (filter ctx nodes).failure
            (filter ctx (renamedAll r nodes)).failure := by
  constructor
  · intro others paired
    exact filterAll_inStep (respects_rekeyed fun _ _ same => same) paired 0
  · intro r keeps
    have inStep : Filtered.InStep ctx _ _ nodes (renamedAll r nodes) (filter ctx nodes)
        (filter ctx (renamedAll r nodes)) :=
      filterAll_inStep (respects_rekeyed fun _ _ key => key.column)
        (paired_renamedAll nodes keeps) 0
    exact ⟨eq_renamedAll_of_paired inStep.nodes.paired, inStep.failure⟩

/-- Users by their alias for bare paths, and without it for all others. -/
def turned (p : Path) : Path :=
  ⟨if p.qualifier = none then some "u" else none, p.field⟩

/-- A zero and a single zero that go, a date that is made to fit, and in a group a list that
must not be empty. -/
def renamingExample : List Node :=
  [.ofPath ⟨none, "id"⟩ (.compare .eq) (.int 0),
    (Node.ofPath ⟨some "u", "born"⟩ (.compare .gte) (.string "2020-01-01")).joined .and,
    (Node.group [.ofPath ⟨some "u", "id"⟩ (.member false) (.int 0),
      .ofPath ⟨some "u", "id"⟩ (.member true) (.array [])]).joined .and]

theorem sameColumn_turned {limit : Nat} {p : Path}
    (known : p.qualifier = none ∨ p.qualifier = some "u") :
    (userSchema.context "users" [("u", "users")] limit).SameColumn p (turned p) := by
  obtain ⟨qualifier, field⟩ := p
  rcases known with rfl | rfl <;> exact ⟨rfl, rfl⟩

theorem keeps_renamingExample {limit : Nat} :
    ∀ n ∈ everyAll renamingExample, ∀ p, n.key = .path p →
      (userSchema.context "users" [("u", "users")] limit).SameColumn p (turned p) := by
  intro n member p key
  apply sameColumn_turned
  simp only [renamingExample, everyAll, Node.every, Node.group, Node.ofPath, Node.joined,
    List.append_nil, List.nil_append, List.cons_append, List.mem_cons, List.not_mem_nil,
    or_false] at member
  rcases member with rfl | rfl | rfl | rfl | rfl <;> cases key <;> simp

/-- Under the other names the same conditions go and the same date stays, and the empty list is
at fault under its own name. -/
theorem filter_renamed_users :
    (filter (userSchema.context "users" [("u", "users")] 2) (renamedAll turned renamingExample)).nodes
        = renamedAll turned
          (filter (userSchema.context "users" [("u", "users")] 2) renamingExample).nodes ∧
      (filter (userSchema.context "users" [("u", "users")] 2) renamingExample).nodes.length = 2 ∧
      (filter (userSchema.context "users" [("u", "users")] 2) renamingExample).failure =
        some (.emptyMembership "u.id") ∧
      (filter (userSchema.context "users" [("u", "users")] 2)
        (renamedAll turned renamingExample)).failure = some (.emptyMembership "id") ∧
      Filtered.InStep (userSchema.context "users" [("u", "users")] 2)
        (Node.Rekeyed (userSchema.context "users" [("u", "users")] 2).SameKey)
        (Fault.Rekeyed (userSchema.context "users" [("u", "users")] 2).SameKey)
        [.ofPath ⟨none, "id"⟩ (.compare .gt) (.int 5)]
        [.ofPath ⟨some "users", "id"⟩ (.compare .gt) (.int 5)]
        (filter (userSchema.context "users" [("u", "users")] 2)
          [.ofPath ⟨none, "id"⟩ (.compare .gt) (.int 5)])
        (filter (userSchema.context "users" [("u", "users")] 2)
          [.ofPath ⟨some "users", "id"⟩ (.compare .gt) (.int 5)]) := by
  have renamed := (filter_renamed (userSchema.context "users" [("u", "users")] 2)
    renamingExample).2 turned keeps_renamingExample
  refine ⟨renamed.1, rfl, rfl, rfl, ?_⟩
  apply (filter_renamed _ _).1
  exact .cons ⟨rfl, .path ⟨rfl, rfl⟩, rfl, rfl⟩ .nil .nil

end Criteria
