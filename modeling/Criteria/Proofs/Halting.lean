/-
# Criteria.Proofs.Halting -- where a walk ends that finds a fault

`FaultAt` says which nodes are at fault, and with what, whatever stands before them: a
node that cannot be judged, or one whose children stand too deep, below nodes that pass.
`Halted` says what a walk leaves that ends at one of them: at every level on the way down
the nodes before it filtered, the nodes after it as they were.

`filter_eq_fault_iff` puts the two together.  A walk that fails has ended at the first node
at fault, in the order of addresses, and has left the forest `Halted` there.
-/
import Criteria.Proofs.NormalForm

namespace Criteria

set_option autoImplicit false

variable {ctx : Context}

/-! ## Nodes that pass -/

namespace Context

/-- The value that a node has once it has passed: of a comparison the value made to fit
the column, of all others their own. -/
def fitted (ctx : Context) (n : Node) : Value :=
  match n.predicate, ctx.locate n.key with
  | .compare _, .ok (field, table) =>
      match table.type? field with
      | some type => ctx.coercion type n.value
      | none => n.value
  | _, _ => n.value

/-- A node passes when there is no fault with its key and value and it is not dropped
for them. -/
def Passes (ctx : Context) (n : Node) : Prop :=
  ctx.judge n.key n.predicate n.value = .ok (some (ctx.fitted n))

/-- A node that stays has its fitted value. -/
theorem eq_fitted_of_judge {n : Node} {v : Value}
    (judged : ctx.judge n.key n.predicate n.value = .ok (some v)) : v = ctx.fitted n := by
  cases predicate : n.predicate with
  | compare op =>
      rw [predicate, judge] at judged
      obtain ⟨p, table, type, key, resolved, _, declared, rfl, _⟩ :=
        judgeComparison_eq_some_iff.mp judged
      have located : ctx.locate n.key = .ok (p.field, table) :=
        locate_eq_ok_iff.mpr ⟨p, key, rfl, resolved⟩
      simp only [fitted, predicate, located, declared]
  | member negated =>
      rw [predicate, judge] at judged
      simp only [fitted, predicate, (judgeMembership_eq_some_iff.mp judged).1]
  | _ =>
      rw [predicate] at judged
      cases judged
      simp only [fitted, predicate]

end Context

/-! ## Faults -/

/-- What is at fault with a node `depth` levels down, those below it aside.  There is no
looking below a node that does not pass. -/
inductive FaultOf (ctx : Context) (depth : Nat) (n : Node) : Fault → Prop where
  | refused {f : Fault} :
      ctx.judge n.key n.predicate n.value = .error f → FaultOf ctx depth n f
  | tooDeep :
      ctx.Passes n → (n.predicate = .group ∨ n.children ≠ []) → ctx.limit < depth + 1 →
      FaultOf ctx depth n (.nestingTooDeep ctx.limit)

/-- The node at an address is at fault.  Children of any node have addresses here, as
filtering goes down into all nodes that pass. -/
inductive FaultAt (ctx : Context) : Nat → List Node → Address → Fault → Prop where
  | here {depth place : Nat} {nodes : List Node} {n : Node} {f : Fault} :
      nodes[place]? = some n → FaultOf ctx depth n f → FaultAt ctx depth nodes [place] f
  | inside {depth place : Nat} {nodes : List Node} {n : Node} {address : Address} {f : Fault} :
      nodes[place]? = some n → ctx.Passes n → depth + 1 ≤ ctx.limit →
      FaultAt ctx (depth + 1) n.children address f → FaultAt ctx depth nodes (place :: address) f

/-- A fault is the first node's own, or one below it, or one of the nodes after it. -/
theorem faultAt_cons_iff {depth : Nat} {n : Node} {rest : List Node} {address : Address}
    {f : Fault} :
    FaultAt ctx depth (n :: rest) address f ↔
      (address = [0] ∧ FaultOf ctx depth n f) ∨
      (∃ below, address = 0 :: below ∧ ctx.Passes n ∧ depth + 1 ≤ ctx.limit ∧
        FaultAt ctx (depth + 1) n.children below f) ∨
      ∃ place below, address = (place + 1) :: below ∧ FaultAt ctx depth rest (place :: below) f := by
  constructor
  · intro fault
    cases fault with
    | @here _ place _ m _ found own =>
        cases place with
        | zero =>
            obtain rfl : n = m := Option.some.inj found
            exact .inl ⟨rfl, own⟩
        | succ place => exact .inr (.inr ⟨place, [], rfl, .here found own⟩)
    | @inside _ place _ m below _ found passes within inner =>
        cases place with
        | zero =>
            obtain rfl : n = m := Option.some.inj found
            exact .inr (.inl ⟨below, rfl, passes, within, inner⟩)
        | succ place => exact .inr (.inr ⟨place, below, rfl, .inside found passes within inner⟩)
  · rintro (⟨rfl, own⟩ | ⟨below, rfl, passes, within, inner⟩ | ⟨place, below, rfl, later⟩)
    · exact .here rfl own
    · exact .inside rfl passes within inner
    · cases later with
      | here found own => exact .here found own
      | inside found passes within inner => exact .inside found passes within inner

/-- A walk without a fault has come to no node at fault. -/
theorem not_faultAt_of_leaves {depth : Nat} {nodes left : List Node}
    (leaves : Leaves ctx depth nodes left) :
    ∀ address f, ¬ FaultAt ctx depth nodes address f := by
  induction leaves with
  | nil =>
      intro address f fault
      cases fault with
      | here found _ => cases found
      | inside found _ _ _ => cases found
  | @idle depth n rest left judged _ after =>
      intro address f fault
      have stays : ¬ ctx.Passes n := by simp [Context.Passes, judged]
      rcases faultAt_cons_iff.mp fault with
        ⟨-, own⟩ | ⟨below, -, passes, -, -⟩ | ⟨place, below, -, later⟩
      · cases own with
        | refused refused => simp [judged] at refused
        | tooDeep passes _ _ => exact stays passes
      · exact stays passes
      · exact after _ _ later
  | @emptied depth n rest left group within _ _ inner after =>
      intro address f fault
      rcases faultAt_cons_iff.mp fault with
        ⟨-, own⟩ | ⟨below, -, -, -, inside⟩ | ⟨place, below, -, later⟩
      · cases own with
        | refused refused => simp [group, Context.judge] at refused
        | tooDeep _ _ beyond => exact absurd within (Nat.not_le.mpr beyond)
      · exact inner _ _ inside
      · exact after _ _ later
  | @kept depth n v below rest left judged within _ _ _ inner after =>
      intro address f fault
      rcases faultAt_cons_iff.mp fault with
        ⟨-, own⟩ | ⟨below, -, -, -, inside⟩ | ⟨place, below, -, later⟩
      · cases own with
        | refused refused => simp [judged] at refused
        | tooDeep _ deeper beyond => exact absurd (within deeper) (Nat.not_le.mpr beyond)
      · exact inner _ _ inside
      · exact after _ _ later

/-! ## What a walk leaves that ends at a fault -/

/-- `left` is what a walk over `nodes` leaves that ends at an address with a fault.  At
each level the nodes before the address have been filtered without a fault and the nodes
after it are as they were.  A node on the way down has its fitted value; the node at the
address has it if it passed. -/
inductive Halted (ctx : Context) : Nat → List Node → Address → Fault → List Node → Prop where
  | refused {depth : Nat} {before kept after : List Node} {n : Node} {f : Fault} :
      filterAll ctx depth before = ⟨kept, none⟩ →
      ctx.judge n.key n.predicate n.value = .error f →
      Halted ctx depth (before ++ n :: after) [before.length] f (kept ++ n :: after)
  | tooDeep {depth : Nat} {before kept after : List Node} {n : Node} :
      filterAll ctx depth before = ⟨kept, none⟩ → ctx.Passes n →
      (n.predicate = .group ∨ n.children ≠ []) → ctx.limit < depth + 1 →
      Halted ctx depth (before ++ n :: after) [before.length] (.nestingTooDeep ctx.limit)
        (kept ++ { n with value := ctx.fitted n } :: after)
  | inside {depth : Nat} {before kept after below : List Node} {n : Node} {address : Address}
      {f : Fault} :
      filterAll ctx depth before = ⟨kept, none⟩ → ctx.Passes n → depth + 1 ≤ ctx.limit →
      Halted ctx (depth + 1) n.children address f below →
      Halted ctx depth (before ++ n :: after) (before.length :: address) f
        (kept ++ { n with value := ctx.fitted n, children := below } :: after)

/-- A walk goes on behind nodes that were filtered without a fault. -/
theorem filterAll_append {depth : Nat} {before kept : List Node}
    (whole : filterAll ctx depth before = ⟨kept, none⟩) (rest : List Node) :
    filterAll ctx depth (before ++ rest) =
      ⟨kept ++ (filterAll ctx depth rest).nodes, (filterAll ctx depth rest).failure⟩ := by
  induction before generalizing kept with
  | nil =>
      rw [filterAll] at whole
      cases whole
      rfl
  | cons n before ih =>
      rw [filterAll] at whole
      rw [List.cons_append, filterAll]
      cases verdict : filterNode ctx depth n with
      | dropped =>
          rw [verdict] at whole
          exact ih whole
      | kept m =>
          rw [verdict] at whole
          cases others : filterAll ctx depth before with
          | mk more failure =>
              simp only [others, Filtered.mk.injEq] at whole
              obtain ⟨rfl, rfl⟩ := whole
              simp only [ih others, List.cons_append]
      | failed m f =>
          rw [verdict] at whole
          cases whole

/-- Below a node filtering ends with a fault when its children are not to be looked into,
or when one of them is at fault. -/
theorem filterBelow_eq_fault_iff {depth : Nat} {predicate : Predicate}
    {children below : List Node} {f : Fault} :
    filterBelow ctx depth predicate children = ⟨below, some f⟩ ↔
      ((predicate = .group ∨ children ≠ []) ∧ ctx.limit < depth + 1 ∧ children = below ∧
        .nestingTooDeep ctx.limit = f) ∨
      depth + 1 ≤ ctx.limit ∧ filterAll ctx (depth + 1) children = ⟨below, some f⟩ := by
  by_cases leaf : predicate ≠ .group ∧ children.isEmpty
  · obtain ⟨noGroup, empty⟩ := leaf
    rw [filterBelow, if_pos ⟨noGroup, empty⟩, List.isEmpty_iff.mp empty, filterAll]
    simp [noGroup]
  · have deeper : predicate = .group ∨ children ≠ [] := by
      by_cases group : predicate = .group
      · exact .inl group
      · exact .inr fun empty => leaf ⟨group, List.isEmpty_iff.mpr empty⟩
    rw [filterBelow, if_neg leaf]
    by_cases beyond : ctx.limit < depth + 1
    · simp [beyond, deeper, Nat.not_le.mpr beyond]
    · simp [beyond, Nat.le_of_not_lt beyond]

/-- A walk that is `Halted` at a node ended there. -/
theorem filterAll_of_halted {depth : Nat} {nodes left : List Node} {address : Address} {f : Fault}
    (halted : Halted ctx depth nodes address f left) :
    filterAll ctx depth nodes = ⟨left, some f⟩ := by
  induction halted with
  | @refused depth before kept after n f whole judged =>
      have step : filterNode ctx depth n = .failed n f := filterNode_eq_iff.mpr (.refused judged)
      rw [filterAll_append whole, filterAll, step]
  | @tooDeep depth before kept after n whole passes deeper beyond =>
      have step := filterNode_eq_iff.mpr
        (.stuck passes (filterBelow_eq_fault_iff.mpr (.inl ⟨deeper, beyond, rfl, rfl⟩)))
      rw [filterAll_append whole, filterAll, step]
  | inside whole passes within _ inner =>
      have step := filterNode_eq_iff.mpr
        (.stuck passes (filterBelow_eq_fault_iff.mpr (.inr ⟨within, inner⟩)))
      rw [filterAll_append whole, filterAll, step]

/-- A walk halts behind nodes that were filtered without a fault as it halts without
them. -/
theorem Halted.behind {depth place : Nat} {front kept nodes left : List Node} {below : Address}
    {f : Fault} (whole : filterAll ctx depth front = ⟨kept, none⟩)
    (halted : Halted ctx depth nodes (place :: below) f left) :
    Halted ctx depth (front ++ nodes) ((front.length + place) :: below) f (kept ++ left) := by
  have longer : ∀ {before more : List Node}, filterAll ctx depth before = ⟨more, none⟩ →
      filterAll ctx depth (front ++ before) = ⟨kept ++ more, none⟩ := by
    intro before more found
    rw [filterAll_append whole, found]
  cases halted with
  | refused found judged =>
      rw [← List.append_assoc, ← List.append_assoc, ← List.length_append]
      exact .refused (longer found) judged
  | tooDeep found passes deeper beyond =>
      rw [← List.append_assoc, ← List.append_assoc, ← List.length_append]
      exact .tooDeep (longer found) passes deeper beyond
  | inside found passes within inner =>
      rw [← List.append_assoc, ← List.append_assoc, ← List.length_append]
      exact .inside (longer found) passes within inner

/-! ## The first fault -/

/-- Some fault is at an address. -/
def Faulty (ctx : Context) (depth : Nat) (nodes : List Node) (address : Address) : Prop :=
  ∃ f, FaultAt ctx depth nodes address f

theorem faulty_parted (ctx : Context) (depth : Nat) (n : Node) (rest : List Node) :
    Address.Parted (Faulty ctx depth (n :: rest)) (∃ f, FaultOf ctx depth n f)
      (fun below => ctx.Passes n ∧ depth + 1 ≤ ctx.limit ∧ Faulty ctx (depth + 1) n.children below)
      (Faulty ctx depth rest) := by
  intro address
  constructor
  · rintro ⟨f, fault⟩
    rcases faultAt_cons_iff.mp fault with
      ⟨first, own⟩ | ⟨below, first, passes, within, inside⟩ | ⟨place, below, later, found⟩
    · exact .inl ⟨first, f, own⟩
    · exact .inr (.inl ⟨below, first, passes, within, f, inside⟩)
    · exact .inr (.inr ⟨place, below, later, f, found⟩)
  · rintro (⟨first, f, own⟩ | ⟨below, first, passes, within, f, inside⟩ |
      ⟨place, below, later, f, found⟩)
    · exact ⟨f, faultAt_cons_iff.mpr (.inl ⟨first, own⟩)⟩
    · exact ⟨f, faultAt_cons_iff.mpr (.inr (.inl ⟨below, first, passes, within, inside⟩))⟩
    · exact ⟨f, faultAt_cons_iff.mpr (.inr (.inr ⟨place, below, later, found⟩))⟩

/-- A node that passes and does not stand too deep for its children is not at fault
itself. -/
theorem not_faultOf_of_passes {depth : Nat} {n : Node} (passes : ctx.Passes n)
    (within : depth + 1 ≤ ctx.limit) : ¬ ∃ f, FaultOf ctx depth n f := by
  rintro ⟨f, own⟩
  cases own with
  | refused refused => cases passes.symm.trans refused
  | tooDeep _ _ beyond => exact absurd within (Nat.not_le.mpr beyond)

/-- The first node at fault, and what is left by a walk that halts there. -/
def HaltsFirst (ctx : Context) (depth : Nat) (nodes : List Node) (f : Fault) (left : List Node) :
    Prop :=
  ∃ address, FaultAt ctx depth nodes address f ∧ address.First (Faulty ctx depth nodes) ∧
    Halted ctx depth nodes address f left

/-- Behind a first node without a fault, here or below, the first fault stays the
first. -/
theorem HaltsFirst.behind {depth : Nat} {n : Node} {kept rest left : List Node} {f : Fault}
    (single : filterAll ctx depth [n] = ⟨kept, none⟩)
    (later : HaltsFirst ctx depth rest f left) :
    HaltsFirst ctx depth (n :: rest) f (kept ++ left) := by
  obtain ⟨address, fault, first, halted⟩ := later
  cases address with
  | nil => cases fault
  | cons place below =>
      have sound := not_faultAt_of_leaves (filterAll_eq_iff.mp single)
      have alone : ∀ address, ¬ Faulty ctx depth [n] address :=
        fun address ⟨g, found⟩ => sound address g found
      have parted := faulty_parted ctx depth n []
      have shifted := halted.behind single
      rw [List.length_singleton, Nat.add_comm] at shifted
      refine ⟨(place + 1) :: below, ?_, ?_, shifted⟩
      · exact faultAt_cons_iff.mpr (.inr (.inr ⟨place, below, rfl, fault⟩))
      · refine (faulty_parted ctx depth n rest).first_behind ?_ ?_ first
        · exact fun own => alone _ ((parted _).mpr (.inl ⟨rfl, own⟩))
        · exact fun b inside => alone _ ((parted _).mpr (.inr (.inl ⟨b, rfl, inside⟩)))

/-- A node at fault itself ends the walk at once. -/
theorem haltsFirst_own {depth : Nat} {n : Node} {rest left : List Node} {f : Fault}
    (own : FaultOf ctx depth n f) (halted : Halted ctx depth (n :: rest) [0] f left) :
    HaltsFirst ctx depth (n :: rest) f left :=
  ⟨[0], faultAt_cons_iff.mpr (.inl ⟨rfl, own⟩),
    (faulty_parted ctx depth n rest).first_own ⟨f, own⟩, halted⟩

/-- A fault below the first node is before all those behind it. -/
theorem HaltsFirst.below {depth : Nat} {n : Node} {left : List Node} {f : Fault}
    (inner : HaltsFirst ctx (depth + 1) n.children f left) (passes : ctx.Passes n)
    (within : depth + 1 ≤ ctx.limit) (rest : List Node) :
    HaltsFirst ctx depth (n :: rest) f ({ n with value := ctx.fitted n, children := left } :: rest)
    := by
  obtain ⟨address, fault, first, halted⟩ := inner
  have nothing : filterAll ctx depth [] = ⟨[], none⟩ := by rw [filterAll]
  refine ⟨0 :: address, ?_, ?_, Halted.inside nothing passes within halted⟩
  · exact faultAt_cons_iff.mpr (.inr (.inl ⟨address, rfl, passes, within, fault⟩))
  · refine (faulty_parted ctx depth n rest).first_below (not_faultOf_of_passes passes within)
      ⟨⟨passes, within, first.told⟩, ?_⟩
    exact fun other inside => first.first other inside.2.2

/-- A walk with a fault halts at the first node at fault. -/
theorem haltsFirst_of_filterAll (nodes : List Node) :
    ∀ depth left f, filterAll ctx depth nodes = ⟨left, some f⟩ →
      HaltsFirst ctx depth nodes f left := by
  induction nodes using forest_induction with
  | nil =>
      intro depth left f found
      rw [filterAll] at found
      cases found
  | cons n rest inner after =>
      intro depth left f found
      have nothing : filterAll ctx depth [] = ⟨[], none⟩ := by rw [filterAll]
      -- A first node that is dropped or kept leaves the fault to the nodes after it.
      have dropped : filterNode ctx depth n = .dropped → filterAll ctx depth [n] = ⟨[], none⟩ := by
        intro verdict
        simp only [filterAll, verdict]
      have kept : ∀ {m}, filterNode ctx depth n = .kept m →
          filterAll ctx depth [n] = ⟨[m], none⟩ := by
        intro m verdict
        simp only [filterAll, verdict]
      have step := filterStep_filterNode ctx depth n
      rw [filterAll] at found
      generalize filterNode ctx depth n = verdict at step found dropped kept
      cases step with
      | refused judged =>
          cases found
          exact haltsFirst_own (.refused judged) (Halted.refused nothing judged)
      | idle _ => exact (after depth left f found).behind (dropped rfl)
      | emptied _ _ _ => exact (after depth left f found).behind (dropped rfl)
      | kept _ _ _ =>
          cases others : filterAll ctx depth rest with
          | mk more failure =>
              simp only [others, Filtered.mk.injEq] at found
              obtain ⟨rfl, rfl⟩ := found
              exact (after depth more f others).behind (kept rfl)
      | @stuck v below g judged stopped =>
          obtain rfl := Context.eq_fitted_of_judge judged
          cases found
          rcases filterBelow_eq_fault_iff.mp stopped with
            ⟨deeper, beyond, rfl, rfl⟩ | ⟨within, stopped⟩
          · exact haltsFirst_own (.tooDeep judged deeper beyond)
              (Halted.tooDeep nothing judged deeper beyond)
          · exact (inner (depth + 1) below f stopped).below judged within rest

/-- **A filtering that fails has halted at the first node at fault**: the fault is that
node's, and what is left of the forest is what `Halted` says. -/
theorem filter_eq_fault_iff (ctx : Context) (nodes left : List Node) (f : Fault) :
    filter ctx nodes = ⟨left, some f⟩ ↔
      ∃ address, FaultAt ctx 0 nodes address f ∧ address.First (Faulty ctx 0 nodes) ∧
        Halted ctx 0 nodes address f left := by
  constructor
  · intro found
    exact haltsFirst_of_filterAll nodes 0 left f found
  · rintro ⟨address, -, -, halted⟩
    exact filterAll_of_halted halted

/-- Of the two conditions below the date one is of a field that users do not have. -/
def haltingExample : List Node :=
  [.ofPath ⟨none, "id"⟩ (.compare .eq) (.int 0),
    ⟨.and, .path ⟨none, "born"⟩, .compare .gte, .string "2020-01-01",
      [.ofPath ⟨none, "id"⟩ (.compare .eq) (.int 0), .ofPath ⟨none, "ghost"⟩ (.compare .eq) (.int 5)]⟩,
    (Node.ofPath ⟨none, "id"⟩ (.compare .eq) (.int 0)).joined .and]

/-- The identity that is zero goes before the fault only, and the date stays made to
fit. -/
theorem filter_haltingExample :
    filter (userSchema.context "users" [] 2) haltingExample =
      ⟨[⟨.and, .path ⟨none, "born"⟩, .compare .gte, Coercion.epochMillis .date (.string "2020-01-01"),
          [.ofPath ⟨none, "ghost"⟩ (.compare .eq) (.int 5)]⟩,
        (Node.ofPath ⟨none, "id"⟩ (.compare .eq) (.int 0)).joined .and],
        some (.undeclaredField "users" "ghost")⟩ :=
  rfl

theorem filter_eq_fault_iff_users :
    ∃ address, FaultAt (userSchema.context "users" [] 2) 0 haltingExample address
        (.undeclaredField "users" "ghost") ∧
      address.First (Faulty (userSchema.context "users" [] 2) 0 haltingExample) ∧
      Halted (userSchema.context "users" [] 2) 0 haltingExample address
        (.undeclaredField "users" "ghost")
        (filter (userSchema.context "users" [] 2) haltingExample).nodes :=
  (filter_eq_fault_iff _ _ _ _).mp filter_haltingExample

end Criteria
