/-
# Criteria.Proofs.MixedLists -- after filtering only a mixed list is a fault

Filtering, binding and writing each look for groups that stand too deep, and filtering and
writing for memberships without items.  After a filtering without a fault there are none to
be found: groups stand within the limit and every node says something.  What filtering does
not look at is whether the items of a membership are of one kind (`Mixed`).

So the writing of what is left fails exactly when there is a membership with a mixed list,
and with the fault of the first one (`writingEnds_emitAll`).
-/
import Criteria.Compile
import Criteria.Proofs.Emitting
import Criteria.Proofs.Halting

namespace Criteria

set_option autoImplicit false

/-! ## Mixed lists -/

/-- The items are not all of the kind that the first of them asks for, nulls aside: the
kind that was expected, and what was found instead. -/
inductive Mixed (items : List Value) : Option LiteralKind → Value.Kind → Prop where
  /-- the first item is an array, which has no kind -/
  | array {inner : List Value} :
      items.find? (!·.isNull) = some (.array inner) → Mixed items none .array
  /-- an item is not of the kind of the first -/
  | refused {first v : Value} {kind : LiteralKind} :
      items.find? (!·.isNull) = some first → LiteralKind.of? first = some kind →
      items.find? (fun v => !kind.accepts v) = some v → Mixed items (some kind) v.kind

/-- Writing the items of a kind stops at the first item of another kind. -/
theorem LiteralKind.literals_eq_error_iff {kind : LiteralKind} {key : String}
    {items : List Value} {f : Fault} :
    kind.literals key items = .error f ↔
      ∃ v, items.find? (fun v => !kind.accepts v) = some v ∧
        f = .mixedMembership key (some kind) v.kind := by
  induction items with
  | nil => simp [LiteralKind.literals]
  | cons v rest ih =>
      rw [LiteralKind.literals_cons]
      cases accepted : kind.accepts v with
      | true =>
          have later : (v :: rest).find? (fun v => !kind.accepts v) =
              rest.find? (fun v => !kind.accepts v) :=
            List.find?_cons_of_neg (by simp [accepted])
          rw [later, ← ih, if_pos rfl]
          cases kind.literals key rest <;> simp [Except.map]
      | false =>
          have own : (v :: rest).find? (fun v => !kind.accepts v) = some v :=
            List.find?_cons_of_pos (by simp [accepted])
          rw [own, if_neg Bool.false_ne_true]
          simp [eq_comm]

/-- An item without a kind that is not null is an array. -/
theorem exists_array_of_kind {v : Value} (present : v.isNull = false)
    (noKind : LiteralKind.of? v = none) : ∃ inner, v = .array inner := by
  cases v with
  | null => cases present
  | array inner => exact ⟨inner, rfl⟩
  | _ => cases noKind

/-- **A list of items is not written exactly when it is mixed.** -/
theorem literals_eq_error_iff {key : String} {items : List Value} {f : Fault} :
    literals key items = .error f ↔
      ∃ expected found, Mixed items expected found ∧ f = .mixedMembership key expected found := by
  cases led : items.find? (!·.isNull) with
  | none =>
      simp only [literals, led, reduceCtorEq, false_iff]
      rintro ⟨_, _, mixed, -⟩
      cases mixed with
      | array first => cases led.symm.trans first
      | refused first _ _ => cases led.symm.trans first
  | some first =>
      have present : first.isNull = false := by simpa using List.find?_some led
      cases kind : LiteralKind.of? first with
      | none =>
          obtain ⟨inner, rfl⟩ := exists_array_of_kind present kind
          simp only [literals, led, kind]
          constructor
          · intro failed
            cases failed
            exact ⟨none, .array, .array led, rfl⟩
          · rintro ⟨_, _, mixed, rfl⟩
            cases mixed with
            | array _ => rfl
            | refused other ofKind _ =>
                cases led.symm.trans other
                cases kind.symm.trans ofKind
      | some kind' =>
          simp only [literals, led, kind, LiteralKind.literals_eq_error_iff]
          constructor
          · rintro ⟨v, refused, rfl⟩
            exact ⟨some kind', v.kind, .refused led kind refused, rfl⟩
          · rintro ⟨_, _, mixed, rfl⟩
            cases mixed with
            | array other =>
                cases led.symm.trans other
                cases kind
            | @refused _ v _ other ofKind refused =>
                cases led.symm.trans other
                cases kind.symm.trans ofKind
                exact ⟨v, refused, rfl⟩

/-- A membership that has items fails when they are mixed. -/
theorem emitMembership_failure_eq_some_iff {key : Key} {predicate : Predicate} {v : Value}
    {f : Fault} (some_ : v.members ≠ []) :
    (emitMembership key predicate v).failure = some f ↔
      ∃ expected found, Mixed v.members expected found ∧
        f = .mixedMembership key.text expected found := by
  have items : members? key v = .ok v.members := by
    unfold members?
    split
    · rename_i nothing
      exact absurd nothing some_
    · rfl
  rw [← literals_eq_error_iff, emitMembership, items]
  simp only [Except.bind]
  cases literals key.text v.members <;> simp

/-! ## Memberships that cannot be written -/

/-- The fault of a membership with a mixed list. -/
inductive Refusal (n : Node) : Fault → Prop where
  | mixed {expected : Option LiteralKind} {found : Value.Kind} :
      n.predicate.isMembership = true → Mixed n.value.members expected found →
      Refusal n (.mixedMembership n.key.text expected found)

/-- The node at an address, below groups only, cannot be written. -/
def RefusalAt (nodes : List Node) (address : Address) (f : Fault) : Prop :=
  ∃ n, nodeAt? nodes address = some n ∧ Refusal n f

def Refused (nodes : List Node) (address : Address) : Prop :=
  ∃ f, RefusalAt nodes address f

theorem refused_parted (n : Node) (rest : List Node) :
    Address.Parted (Refused (n :: rest)) (∃ f, Refusal n f)
      (fun below => n.predicate = .group ∧ Refused n.children below) (Refused rest) := by
  intro address
  constructor
  · rintro ⟨f, m, found, refusal⟩
    rcases nodeAt?_cons_iff.mp found with
      ⟨first, rfl⟩ | ⟨below, first, group, inside⟩ | ⟨place, below, later, found⟩
    · exact .inl ⟨first, f, refusal⟩
    · exact .inr (.inl ⟨below, first, group, f, m, inside, refusal⟩)
    · exact .inr (.inr ⟨place, below, later, f, m, found, refusal⟩)
  · rintro (⟨first, f, refusal⟩ | ⟨below, first, group, f, m, inside, refusal⟩ |
      ⟨place, below, later, f, m, found, refusal⟩)
    · exact ⟨f, n, nodeAt?_cons_iff.mpr (.inl ⟨first, rfl⟩), refusal⟩
    · exact ⟨f, m, nodeAt?_cons_iff.mpr (.inr (.inl ⟨below, first, group, inside⟩)), refusal⟩
    · exact ⟨f, m, nodeAt?_cons_iff.mpr (.inr (.inr ⟨place, below, later, found⟩)), refusal⟩

/-- The fault is that of the first node which cannot be written. -/
def FirstRefusal (nodes : List Node) (f : Fault) : Prop :=
  ∃ address, RefusalAt nodes address f ∧ address.First (Refused nodes)

/-- How the writing of a list of nodes ends: without a fault when none is refused, and
else with that of the first one refused. -/
inductive WritingEnds (nodes : List Node) : Option Fault → Prop where
  | whole : (∀ address, ¬ Refused nodes address) → WritingEnds nodes none
  | stopped {f : Fault} : FirstRefusal nodes f → WritingEnds nodes (some f)

namespace WritingEnds

variable {n : Node} {nodes rest : List Node} {f : Fault} {failure : Option Fault}

theorem ne_none_iff (ends : WritingEnds nodes failure) :
    failure ≠ none ↔ ∃ address, Refused nodes address := by
  cases ends with
  | whole clear =>
      constructor
      · exact fun fails => absurd rfl fails
      · rintro ⟨address, refused⟩
        exact absurd refused (clear address)
  | stopped first =>
      obtain ⟨address, -, first⟩ := first
      exact ⟨fun _ => ⟨address, first.told⟩, fun _ => Option.some_ne_none _⟩

theorem firstRefusal (ends : WritingEnds nodes (some f)) : FirstRefusal nodes f := by
  cases ends with
  | stopped first => exact first

theorem own (refusal : Refusal n f) : WritingEnds (n :: rest) (some f) := by
  have found : nodeAt? (n :: rest) [0] = some n := nodeAt?_cons_iff.mpr (.inl ⟨rfl, rfl⟩)
  exact .stopped ⟨[0], ⟨n, found, refusal⟩, (refused_parted n rest).first_own ⟨f, refusal⟩⟩

theorem below (group : n.predicate = .group) (passed : ¬ ∃ f, Refusal n f)
    (inner : WritingEnds n.children (some f)) : WritingEnds (n :: rest) (some f) := by
  obtain ⟨address, ⟨m, inside, refusal⟩, first⟩ := inner.firstRefusal
  have found : nodeAt? (n :: rest) (0 :: address) = some m :=
    nodeAt?_cons_iff.mpr (.inr (.inl ⟨address, rfl, group, inside⟩))
  refine .stopped ⟨0 :: address, ⟨m, found, refusal⟩, ?_⟩
  refine (refused_parted n rest).first_below passed ⟨⟨group, first.told⟩, ?_⟩
  exact fun other inside => first.first other inside.2

theorem behind (passed : ¬ ∃ f, Refusal n f)
    (clear : n.predicate = .group → ∀ address, ¬ Refused n.children address)
    (later : WritingEnds rest failure) : WritingEnds (n :: rest) failure := by
  have parted := refused_parted n rest
  cases later with
  | whole none_ =>
      refine .whole fun address refused => ?_
      rcases (parted address).mp refused with
        ⟨-, here⟩ | ⟨below, -, group, inside⟩ | ⟨place, below, -, found⟩
      · exact passed here
      · exact clear group below inside
      · exact none_ _ found
  | stopped first =>
      obtain ⟨address, ⟨m, found, refusal⟩, first⟩ := first
      cases address with
      | nil => cases found
      | cons place below =>
          have behind : nodeAt? (n :: rest) ((place + 1) :: below) = some m :=
            nodeAt?_cons_iff.mpr (.inr (.inr ⟨place, below, rfl, found⟩))
          refine .stopped ⟨_, ⟨m, behind, refusal⟩, ?_⟩
          exact parted.first_behind passed (fun b inside => clear inside.1 b inside.2) first

end WritingEnds

/-- A node that is no group and says something fails when it is refused. -/
theorem emitBody_failure_eq_some_iff {limit depth : Nat} {n : Node} {f : Fault}
    (plain : n.predicate ≠ .group) (speaks : n.Says) :
    (emitBody limit depth n).failure = some f ↔ Refusal n f := by
  by_cases list : n.predicate.isMembership = true
  · have items : n.value.members ≠ [] := by
      cases predicate : n.predicate with
      | member negated => simpa only [Node.Says, predicate] using speaks
      | _ => simp [predicate, Predicate.isMembership] at list
    rw [emitBody_membership list, emitMembership_failure_eq_some_iff items]
    constructor
    · rintro ⟨expected, found, mixed, rfl⟩
      exact .mixed list mixed
    · rintro ⟨-, mixed⟩
      exact ⟨_, _, mixed, rfl⟩
  · rw [emitBody_failure_of_plain plain (Bool.eq_false_iff.mpr list)]
    constructor
    · rintro ⟨⟩
    · rintro ⟨member, -⟩
      exact absurd member list

/-- A group is not refused itself. -/
theorem not_refusal_of_group {n : Node} (group : n.predicate = .group) : ¬ ∃ f, Refusal n f := by
  rintro ⟨f, ⟨member, -⟩⟩
  rw [group] at member
  cases member

/-- **Writing stops at the first mixed list and at nothing else**, where groups stand
within the limit and every node says something. -/
theorem writingEnds_emitAll (limit : Nat) (nodes : List Node) :
    ∀ depth leading, Within limit depth nodes → Settled nodes →
      WritingEnds nodes (emitAll limit depth leading nodes).failure := by
  induction nodes using forest_induction with
  | nil =>
      intro depth leading _ _
      rw [emitAll]
      refine .whole ?_
      rintro address ⟨f, m, found, -⟩
      rcases address with _ | ⟨place, _ | _⟩ <;> simp [nodeAt?] at found
  | cons n rest inner after =>
      intro depth leading within settled
      obtain ⟨speaks, settledBelow, settledRest⟩ := settled.cases
      obtain ⟨shallow, withinBelow, withinRest⟩ := within.cases
      have later := after depth false withinRest settledRest
      rw [emitAll_cons_failure speaks]
      -- A group ends the writing as its children do, any other node with its own fault.
      by_cases group : n.predicate = .group
      · have below := inner (depth + 1) true withinBelow settledBelow
        rw [emitBody_group_failure group (shallow group)]
        generalize (emitAll limit (depth + 1) true n.children).failure = failure at below
        cases failure with
        | some f => exact below.below group (not_refusal_of_group group)
        | none =>
            cases below with
            | whole clear => exact later.behind (not_refusal_of_group group) fun _ => clear
      · have refuses : ∀ f, (emitBody limit depth n).failure = some f ↔ Refusal n f :=
          fun f => emitBody_failure_eq_some_iff group speaks
        cases failed : (emitBody limit depth n).failure with
        | some f => exact .own ((refuses f).mp failed)
        | none =>
            refine later.behind ?_ fun own => absurd own group
            rintro ⟨f, refusal⟩
            cases failed.symm.trans ((refuses f).mpr refusal)

/-! ## Compiling -/

/-- The conjunction of the first node makes no difference to the fault of writing. -/
theorem emit_dropFirstConjunction_failure (limit : Nat) (nodes : List Node) :
    (emit limit (dropFirstConjunction nodes)).failure = (emit limit nodes).failure := by
  cases nodes with
  | nil => rfl
  | cons n rest =>
      have group : (n.joined .none).isEmptyGroup = n.isEmptyGroup := rfl
      have body : emitBody limit 0 (n.joined .none) = emitBody limit 0 n := rfl
      simp only [dropFirstConjunction, emit, emitAll, group]
      split
      · rfl
      · simp only [Emitted.followedBy_failure, emitNode_failure, body]

theorem bindings_dropFirstConjunction (limit : Nat) (nodes : List Node) :
    bindings limit (dropFirstConjunction nodes) = bindings limit nodes := by
  cases nodes with
  | nil => rfl
  | cons n rest =>
      obtain ⟨conjunction, key, predicate, v, children⟩ := n
      cases predicate <;> rfl

/-- When binding has no fault, that of a rendering is the fault of writing. -/
theorem compileUnfiltered_eq_error_iff {dialect : Dialect} {limit : Nat} {nodes : List Node}
    {f : Fault} (bound : (bindings limit nodes).failure = none) :
    compileUnfiltered dialect limit nodes = .error f ↔ (emit limit nodes).failure = some f := by
  rw [compileUnfiltered_eq, bound]
  cases (emit limit nodes).failure <;> simp

/-! ## Faults of filtering -/

/-- What judging finds at fault is in the conditions. -/
theorem Context.isConstruction_of_judge {ctx : Context} {key : Key} {predicate : Predicate}
    {v : Value} {f : Fault} (failed : ctx.judge key predicate v = .error f) :
    f.isConstruction = true := by
  cases objection_of_judge failed <;> rfl

theorem isConstruction_of_faultAt {ctx : Context} {depth : Nat} {nodes : List Node}
    {address : Address} {f : Fault} (fault : FaultAt ctx depth nodes address f) :
    f.isConstruction = true := by
  induction fault with
  | here _ own =>
      cases own with
      | refused failed => exact Context.isConstruction_of_judge failed
      | tooDeep _ _ _ => rfl
  | inside _ _ _ _ ih => exact ih

/-- **Filtering finds faults of construction only.** -/
theorem isConstruction_of_filter {ctx : Context} {nodes : List Node} {f : Fault}
    (failed : (filter ctx nodes).failure = some f) : f.isConstruction = true := by
  have ended : filterAll ctx 0 nodes = ⟨(filter ctx nodes).nodes, some f⟩ := by
    rw [← failed]
    rfl
  obtain ⟨address, fault, -, -⟩ := haltsFirst_of_filterAll nodes 0 _ f ended
  exact isConstruction_of_faultAt fault

/-! ## The theorem -/

/-- What filtering leaves without a fault is written up to the first mixed list. -/
theorem writingEnds_filter {ctx : Context} {nodes : List Node}
    (whole : (filter ctx nodes).failure = none) :
    WritingEnds (filter ctx nodes).nodes (emit ctx.limit (filter ctx nodes).nodes).failure := by
  have leaves := leaves_of_whole whole
  exact writingEnds_emitAll ctx.limit _ 0 false leaves.within leaves.settled

/-- After filtering without a fault, compiling fails as writing does. -/
theorem compile_eq_error_iff_of_whole {ctx : Context} {dialect : Dialect} {nodes : List Node}
    {f : Fault} (whole : (filter ctx nodes).failure = none) :
    (compile ctx dialect nodes).2 = .error f ↔
      (emit ctx.limit (filter ctx nodes).nodes).failure = some f := by
  have bound : (bindings ctx.limit (filter ctx nodes).nodes).failure = none :=
    bindAll_failure_of_within ctx.limit _ 0 (leaves_of_whole whole).within
  rw [compile_of_whole dialect whole, compileUnfiltered_eq_error_iff,
    emit_dropFirstConjunction_failure]
  rw [bindings_dropFirstConjunction]
  exact bound

theorem FirstRefusal.eq_mixedMembership {nodes : List Node} {f : Fault}
    (first : FirstRefusal nodes f) :
    ∃ key expected found, f = .mixedMembership key expected found := by
  obtain ⟨_, ⟨n, _, ⟨_, _⟩⟩, _⟩ := first
  exact ⟨_, _, _, rfl⟩

/-- **Once filtering has ended without a fault, only a mixed list can stop a
compilation.**  All values are collected; writing fails exactly when some membership has a
mixed list, and with the fault of the first; and compiling finds no other fault.  Any fault
of a compilation is one of construction. -/
theorem compile_stops_only_at_mixed (ctx : Context) (dialect : Dialect) (nodes : List Node) :
    ((filter ctx nodes).failure = none →
      (∀ c : Collector, c.limit = ctx.limit → (c.collect (filter ctx nodes).nodes).2 = none) ∧
      (∀ w : Writer, w.limit = ctx.limit →
        ((w.write (filter ctx nodes).nodes).2 ≠ none ↔
          ∃ address, Refused (filter ctx nodes).nodes address) ∧
        ∀ f, (w.write (filter ctx nodes).nodes).2 = some f →
          FirstRefusal (filter ctx nodes).nodes f) ∧
      ∀ f, (compile ctx dialect nodes).2 = .error f →
        FirstRefusal (filter ctx nodes).nodes f ∧
          (∀ limit, f ≠ .nestingTooDeep limit) ∧ ∀ key, f ≠ .emptyMembership key) ∧
    ∀ f, (compile ctx dialect nodes).2 = .error f → f.isConstruction = true := by
  constructor
  · intro whole
    have ends := writingEnds_filter whole
    refine ⟨fun c same => ?_, fun w same => ?_, fun f failed => ?_⟩
    · rw [Collector.collect, same]
      exact bindAll_failure_of_within ctx.limit _ 0 (leaves_of_whole whole).within
    · simp only [Writer.write, same]
      refine ⟨ends.ne_none_iff, fun f failed => ?_⟩
      rw [failed] at ends
      exact ends.firstRefusal
    · rw [(compile_eq_error_iff_of_whole whole).mp failed] at ends
      obtain ⟨key, expected, found, rfl⟩ := ends.firstRefusal.eq_mixedMembership
      refine ⟨ends.firstRefusal, fun limit same => ?_, fun key same => ?_⟩
      · cases same
      · cases same
  · intro f failed
    cases ended : (filter ctx nodes).failure with
    | some g =>
        rw [compile_of_fault dialect ended] at failed
        cases failed
        exact isConstruction_of_filter ended
    | none =>
        have ends := writingEnds_filter ended
        rw [(compile_eq_error_iff_of_whole ended).mp failed] at ends
        obtain ⟨key, expected, found, rfl⟩ := ends.firstRefusal.eq_mixedMembership
        rfl

/-- Two lists are mixed; the first of them stands in a group. -/
def mixedExample : List Node :=
  [.group [.ofPath ⟨none, "id"⟩ (.compare .gt) (.int 5),
      (Node.ofPath ⟨none, "id"⟩ (.member false)
        (.array [.null, .int 1, .string "2"])).joined .or],
    (Node.ofPath ⟨none, "born"⟩ (.member true) (.array [.array [], .int 1])).joined .and]

theorem compile_stops_only_at_mixed_users :
    (filter (userSchema.context "users" [] 2) mixedExample).failure = none ∧
      (compile (userSchema.context "users" [] 2) .postgres mixedExample).2 =
        .error (.mixedMembership "id" (some .plain) .string) ∧
      FirstRefusal (filter (userSchema.context "users" [] 2) mixedExample).nodes
        (.mixedMembership "id" (some .plain) .string) :=
  ⟨rfl, rfl, (((compile_stops_only_at_mixed (userSchema.context "users" [] 2) .postgres
    mixedExample).1 rfl).2.2 _ rfl).1⟩

end Criteria
