/-
# Criteria.Proofs.SingleItems -- an item by itself and the list of it

A membership may have a list for its value or, when it has a single item, the item by itself.
Nothing that is done with a membership can tell the two apart: judging asks for its items
(`Context.judgeMembership_of_members`), writing writes them (`emitMembership_of_members`), and
nothing is bound.  So any number of single items may be put into lists, anywhere in a tree.
Filtering then goes in step, and what is compiled or rendered is the same, fault or text
(`item_or_list`).
-/
import Criteria.Compile
import Criteria.Proofs.Independence
import Criteria.Proofs.Lockstep
import Criteria.Proofs.NormalForm

namespace Criteria

set_option autoImplicit false

/-! ## Items and lists -/

/-- Neither null nor a list. -/
def Value.isScalar : Value → Bool
  | .null => false
  | .array _ => false
  | _ => true

theorem Value.members_of_isScalar {v : Value} (scalar : v.isScalar = true) : v.members = [v] := by
  cases v <;> first | rfl | cases scalar

/-- The nodes are the same, or they are memberships of one item, which the first has by itself
and the second in a list. -/
structure Node.Listed (n m : Node) : Prop where
  conjunction : m.conjunction = n.conjunction
  key : m.key = n.key
  predicate : m.predicate = n.predicate
  value : m.value = n.value ∨
    n.predicate.isMembership = true ∧ n.value.isScalar = true ∧ m.value = .array [n.value]

namespace Node.Listed

variable {n m : Node}

theorem members (listed : n.Listed m) : m.value.members = n.value.members := by
  rcases listed.value with same | ⟨-, scalar, list⟩
  · rw [same]
  · rw [list, Value.members_of_isScalar scalar]
    rfl

theorem value_of_not_membership (listed : n.Listed m) (other : n.predicate.isMembership = false) :
    m.value = n.value := by
  rcases listed.value with same | ⟨membership, -⟩
  · exact same
  · rw [other] at membership
    cases membership

theorem joined (listed : n.Listed m) (conjunction : Conjunction) :
    (n.joined conjunction).Listed (m.joined conjunction) :=
  ⟨rfl, listed.key, listed.predicate, listed.value⟩

end Node.Listed

/-! ## Filtering -/

section

variable {ctx : Context}

/-- **A membership is judged by its items**, and stays with its own value. -/
theorem Context.judgeMembership_of_members (key : Key) {v w : Value}
    (items : w.members = v.members) :
    ctx.judgeMembership key w = (ctx.judgeMembership key v).map (Option.map fun _ => w) := by
  simp only [judgeMembership, members?, items]
  rcases v.members with _ | ⟨item, _ | _⟩
  · rfl
  · simp only [bind, Except.bind]
    cases ctx.locate key with
    | error f => rfl
    | ok found =>
        simp only [pure, Except.pure, Except.map]
        split <;> rfl
  · rfl

/-- A membership with its single item in a list is judged as the one without. -/
theorem judgedAlike_of_listed {n m : Node} (listed : n.Listed m) :
    ctx.JudgedAlike Node.Listed Eq n m := by
  have again : ∀ v w, (w = v ∨ v = n.value ∧ w = m.value) → ∀ below below',
      Node.Listed { n with value := v, children := below }
        { m with value := w, children := below' } := by
    rintro v w (rfl | ⟨rfl, rfl⟩) below below'
    · exact ⟨listed.conjunction, listed.key, listed.predicate, .inl rfl⟩
    · exact ⟨listed.conjunction, listed.key, listed.predicate, listed.value⟩
  cases kind : n.predicate with
  | member negated =>
      have judged : ctx.judge n.key n.predicate n.value = ctx.judgeMembership n.key n.value := by
        rw [kind, Context.judge]
      refine .of_map (fun _ => m.value) ?_ (fun _ => rfl) fun v stays => ?_
      · rw [judged, listed.predicate, listed.key, kind, Context.judge]
        exact Context.judgeMembership_of_members n.key listed.members
      · rw [judged] at stays
        obtain ⟨rfl, -, -⟩ := Context.judgeMembership_eq_some_iff.mp stays
        exact again _ _ (.inr ⟨rfl, rfl⟩)
  | _ =>
      have same : m.value = n.value := listed.value_of_not_membership (by rw [kind]; rfl)
      refine .of_eq ?_ (fun _ => rfl) fun v => again v v (.inl rfl)
      rw [listed.key, listed.predicate, same]

theorem respects_listed (ctx : Context) : ctx.Respects Node.Listed Eq where
  predicate := fun _ _ listed => listed.predicate.symm
  judged := fun _ _ listed => judgedAlike_of_listed listed
  nesting := rfl

end

/-! ## Writing and binding -/

/-- **A membership is written by its items.** -/
theorem emitMembership_of_members (key : Key) (predicate : Predicate) {v w : Value}
    (items : w.members = v.members) :
    emitMembership key predicate w = emitMembership key predicate v := by
  unfold emitMembership members?
  rw [items]

theorem emitBody_of_listed {limit depth : Nat} {n m : Node} (listed : n.Listed m)
    (inner : emitAll limit (depth + 1) true m.children =
      emitAll limit (depth + 1) true n.children) :
    emitBody limit depth m = emitBody limit depth n := by
  unfold emitBody
  rw [listed.predicate, listed.key, inner, emitMembership_of_members _ _ listed.members]
  cases predicate : n.predicate with
  | compare op => rw [listed.value_of_not_membership (by rw [predicate]; rfl)]
  | _ => rfl

theorem isEmptyGroup_of_listed {n m : Node} (listed : n.Listed m)
    (below : Paired Node.Listed n.children m.children) : m.isEmptyGroup = n.isEmptyGroup := by
  rw [Node.isEmptyGroup, Node.isEmptyGroup, listed.predicate, below.isEmpty]

/-- **With single items in lists a forest is written alike**, fault included. -/
theorem emitAll_of_listed {limit : Nat} {nodes others : List Node}
    (listed : Paired Node.Listed nodes others) :
    ∀ depth leading, emitAll limit depth leading others = emitAll limit depth leading nodes := by
  induction listed with
  | nil => exact fun _ _ => rfl
  | @cons n m rest others own below _ inner after =>
      intro depth leading
      have first : emitNode limit depth leading m = emitNode limit depth leading n := by
        rw [emitNode_eq, emitNode_eq, own.conjunction, emitBody_of_listed own (inner _ _)]
      rw [emitAll, emitAll, isEmptyGroup_of_listed own below, first, after, after]

/-- Memberships bind nothing. -/
theorem sameBinding_of_listed {nodes others : List Node}
    (listed : Paired Node.Listed nodes others) : SameBinding nodes others := by
  induction listed with
  | nil => exact .nil
  | @cons n m rest others own _ _ inner after =>
      refine .cons ⟨own.predicate.symm, ?_, ?_⟩ (fun _ => inner) after
      · intro compares
        refine (own.value_of_not_membership ?_).symm
        cases predicate : n.predicate <;> rw [predicate] at compares <;>
          first | rfl | cases compares
      · intro fragment
        exact (own.value_of_not_membership (by rw [fragment]; rfl)).symm

theorem write_of_listed {nodes others : List Node} (listed : Paired Node.Listed nodes others)
    (w : Writer) : w.write others = w.write nodes := by
  have emitted : emit w.limit others = emit w.limit nodes := emitAll_of_listed listed 0 false
  rw [Writer.write, Writer.write, emitted]

theorem collect_of_listed {nodes others : List Node} (listed : Paired Node.Listed nodes others)
    (c : Collector) : c.collect others = c.collect nodes := by
  have bound : bindings c.limit others = bindings c.limit nodes :=
    (bindAll_of_sameBinding (sameBinding_of_listed listed) 0).symm
  rw [Collector.collect, Collector.collect, bound]

theorem compileUnfiltered_of_listed {nodes others : List Node}
    (listed : Paired Node.Listed nodes others) (dialect : Dialect) (limit : Nat) :
    compileUnfiltered dialect limit others = compileUnfiltered dialect limit nodes := by
  rw [compileUnfiltered, compileUnfiltered, collect_of_listed listed, write_of_listed listed]

theorem listed_dropFirstConjunction {nodes others : List Node}
    (listed : Paired Node.Listed nodes others) :
    Paired Node.Listed (dropFirstConjunction nodes) (dropFirstConjunction others) := by
  cases listed with
  | nil => exact .nil
  | cons own below behind => exact .cons (own.joined .none) below behind

/-! ## The theorem -/

theorem filter_of_listed (ctx : Context) {nodes others : List Node}
    (listed : Paired Node.Listed nodes others) :
    InStep ctx Node.Listed nodes others (filter ctx nodes).nodes (filter ctx others).nodes ∧
      (filter ctx others).failure = (filter ctx nodes).failure := by
  obtain ⟨inStep, ended⟩ : Filtered.InStep ctx Node.Listed Eq nodes others (filter ctx nodes)
      (filter ctx others) := filterAll_inStep (respects_listed ctx) listed 0
  refine ⟨inStep, ?_⟩
  generalize (filter ctx nodes).failure = failure at ended
  generalize (filter ctx others).failure = failure' at ended
  cases ended with
  | none => rfl
  | some same => rw [same]

theorem compile_of_listed (ctx : Context) (dialect : Dialect) {nodes others : List Node}
    (listed : Paired Node.Listed nodes others) :
    (compile ctx dialect others).2 = (compile ctx dialect nodes).2 ∧
      Paired Node.Listed (compile ctx dialect nodes).1 (compile ctx dialect others).1 := by
  obtain ⟨inStep, same⟩ := filter_of_listed ctx listed
  cases ended : (filter ctx nodes).failure with
  | some f =>
      rw [compile_of_fault dialect ended, compile_of_fault dialect (same.trans ended)]
      exact ⟨rfl, inStep.paired⟩
  | none =>
      have left := listed_dropFirstConjunction inStep.paired
      rw [compile_of_whole dialect ended, compile_of_whole dialect (same.trans ended)]
      exact ⟨compileUnfiltered_of_listed left dialect ctx.limit, left⟩

/-- **A single item by itself is the same as the list of it.**  With any single items of
memberships put into lists a forest is filtered in step, compiled to the same text, values and
placeholders or with the same fault, and rendered to the same text.  What is left is the same
but for those items. -/
theorem item_or_list {nodes others : List Node} (listed : Paired Node.Listed nodes others) :
    (∀ ctx, InStep ctx Node.Listed nodes others (filter ctx nodes).nodes (filter ctx others).nodes ∧
      (filter ctx others).failure = (filter ctx nodes).failure) ∧
    (∀ ctx dialect, (compile ctx dialect others).2 = (compile ctx dialect nodes).2 ∧
      Paired Node.Listed (compile ctx dialect nodes).1 (compile ctx dialect others).1) ∧
    (∀ dialect limit,
      compileUnfiltered dialect limit others = compileUnfiltered dialect limit nodes) ∧
    ∀ dialect, render dialect others = render dialect nodes := by
  refine ⟨fun ctx => filter_of_listed ctx listed,
    fun ctx dialect => compile_of_listed ctx dialect listed,
    fun dialect limit => compileUnfiltered_of_listed listed dialect limit, fun dialect => ?_⟩
  rw [render, render, write_of_listed listed]

/-- A single zero that goes, a text and, in a group, a name; `inList` writes the items. -/
def singleExample (inList : Value → Value) (key : String) : List Node :=
  [.ofPath ⟨none, "id"⟩ (.member false) (inList (.int 0)),
    (Node.ofPath ⟨none, "born"⟩ (.member true) (inList (.string "it's; over"))).joined .and,
    (Node.group [.ofPath ⟨some "u", key⟩ (.compare .eq) (.int 7),
      (Node.ofPath ⟨some "v", "id"⟩ (.member false) (inList (.enum "ANN"))).joined .or]).joined .and]

theorem listed_singleExample (key : String) :
    Paired Node.Listed (singleExample id key) (singleExample (fun v => .array [v]) key) := by
  have single : ∀ {n m : Node}, m.conjunction = n.conjunction → m.key = n.key →
      m.predicate = n.predicate → n.predicate.isMembership = true → n.value.isScalar = true →
      m.value = .array [n.value] → n.Listed m :=
    fun conjunction key predicate list scalar value =>
      ⟨conjunction, key, predicate, .inr ⟨list, scalar, value⟩⟩
  refine .cons (single rfl rfl rfl rfl rfl rfl) .nil ?_
  refine .cons (single rfl rfl rfl rfl rfl rfl) .nil ?_
  refine .cons ⟨rfl, rfl, rfl, .inl rfl⟩ ?_ .nil
  refine .cons ⟨rfl, rfl, rfl, .inl rfl⟩ .nil ?_
  exact .cons (single rfl rfl rfl rfl rfl rfl) .nil .nil

/-- In lists the single items compile as by themselves; a table that is not known is found at
fault with them and without. -/
theorem item_or_list_users :
    (compile (userSchema.context "users" [("u", "users"), ("v", "users")] 2) .postgres
        (singleExample (fun v => .array [v]) "id")).2 =
        .ok ⟨"born NOT IN ( 'it''s  over' ) AND ( u.id = $1 OR v.id IN ( 'ANN' ) )", [.int 7], 1⟩ ∧
      (compile (userSchema.context "users" [("u", "users")] 2) .postgres
        (singleExample (fun v => .array [v]) "id")).2 = .error (.unknownSchema "v") ∧
      (filter (userSchema.context "users" [("u", "users")] 2)
        (singleExample (fun v => .array [v]) "ghost")).failure =
          some (.undeclaredField "users" "ghost") ∧
      render .question (singleExample (fun v => .array [v]) "id") =
        .ok ("id IN ( 0 ) AND born NOT IN ( 'it''s  over' )" ++
          " AND ( u.id = ? OR v.id IN ( 'ANN' ) )") := by
  obtain ⟨-, compiled, -, rendered⟩ := item_or_list (listed_singleExample "id")
  obtain ⟨filtered, -⟩ := item_or_list (listed_singleExample "ghost")
  refine ⟨?_, ?_, ?_, ?_⟩
  · rw [(compiled _ .postgres).1]
    rfl
  · rw [(compiled _ .postgres).1]
    rfl
  · rw [(filtered _).2]
    rfl
  · rw [rendered]
    rfl

end Criteria
