/-
# Criteria.Proofs.SavedInstants -- filtering a tree that was saved and loaded

A filtered tree that is saved, loaded and filtered again may lose some of its nodes: comparisons
with instants whose years have more than four digits, and nodes with a double of which loading
makes null or zero.  All below such a node is lost with it.

What is left are the comparisons with columns of instants in their order (`instantComparisons`),
and each has the instant that its timestamp showed.  They are the same as before exactly when
none is lost and all are instants that a clock can show (`InstantsKept`,
`instantComparisons_eq_iff`).  When no node at all is lost the whole tree is left, with the values
restored (`restoredAll`, `filter_saved`).
-/
import Criteria.Proofs.ReloadedConditions

namespace Criteria

set_option autoImplicit false

open Calendar (Instant)
open Node

/-! ## Comparisons with instants -/

namespace Context

/-- The node without what is below it, if it is a comparison with a column of instants. -/
def ownInstant (ctx : Context) (n : Node) : List Node :=
  if ctx.comparesInstants n.key n.predicate then [{ n with children := [] }] else []

/-- The comparisons with columns of instants, each without what is below it. -/
def instantComparisons (ctx : Context) (nodes : List Node) : List Node :=
  (everyAll nodes).flatMap ctx.ownInstant

variable {ctx : Context}

theorem instantComparisons_cons (n : Node) (rest : List Node) :
    ctx.instantComparisons (n :: rest) =
      ctx.ownInstant n ++ (ctx.instantComparisons n.children ++ ctx.instantComparisons rest) := by
  rw [instantComparisons, everyAll_cons, List.flatMap_cons, List.flatMap_append]
  rfl

/-- If the node compares with an instant, that is one which the timestamp tells. -/
def TellsInstant (ctx : Context) (n : Node) : Prop :=
  ctx.comparesInstants n.key n.predicate = true →
    ∀ i, n.value = .date i → i.InFourDigits ∧ i.OnClock

/-- All comparisons with instants have such that their timestamps tell, and none stands below a
node that is lost. -/
structure InstantsKept (ctx : Context) (nodes : List Node) : Prop where
  told : ∀ n ∈ everyAll nodes, ctx.TellsInstant n
  uncovered : ∀ n ∈ everyAll nodes, ctx.rejudge n = .ok none →
    ctx.instantComparisons n.children = []

theorem instantsKept_cons_iff {n : Node} {rest : List Node} :
    ctx.InstantsKept (n :: rest) ↔
      (ctx.TellsInstant n ∧ (ctx.rejudge n = .ok none → ctx.instantComparisons n.children = [])) ∧
        ctx.InstantsKept n.children ∧ ctx.InstantsKept rest := by
  constructor
  · rintro ⟨told, uncovered⟩
    obtain ⟨toldHere, toldBelow, toldBehind⟩ := forall_mem_everyAll_cons.mp told
    obtain ⟨here, below, behind⟩ := forall_mem_everyAll_cons.mp uncovered
    exact ⟨⟨toldHere, here⟩, ⟨toldBelow, below⟩, ⟨toldBehind, behind⟩⟩
  · rintro ⟨⟨toldHere, here⟩, ⟨toldBelow, below⟩, ⟨toldBehind, behind⟩⟩
    exact ⟨forall_mem_everyAll_cons.mpr ⟨toldHere, toldBelow, toldBehind⟩,
      forall_mem_everyAll_cons.mpr ⟨here, below, behind⟩⟩

theorem instantsKept_nil : ctx.InstantsKept [] :=
  ⟨nofun, nofun⟩

theorem tellsInstant_of_ownInstant {n : Node} (none_ : ctx.ownInstant n = []) :
    ctx.TellsInstant n := by
  intro compares
  rw [ownInstant, if_pos compares] at none_
  cases none_

/-- Where there are no such comparisons there is nothing to keep. -/
theorem instantsKept_of_none (nodes : List Node) (none_ : ctx.instantComparisons nodes = []) :
    ctx.InstantsKept nodes := by
  induction nodes using forest_induction with
  | nil => exact instantsKept_nil
  | cons n rest inner after =>
      rw [instantComparisons_cons, List.append_eq_nil_iff, List.append_eq_nil_iff] at none_
      obtain ⟨own, below, behind⟩ := none_
      exact instantsKept_cons_iff.mpr
        ⟨⟨tellsInstant_of_ownInstant own, fun _ => below⟩, inner below, after behind⟩

/-! ### One node -/

/-- A node that is lost was no comparison with an instant that its timestamp tells. -/
theorem ownInstant_eq_nil_iff {n : Node} (foreseen : ctx.Foreseen n)
    (lost : ctx.rejudge n = .ok none) : ctx.ownInstant n = [] ↔ ctx.TellsInstant n := by
  refine ⟨tellsInstant_of_ownInstant, fun tells => ?_⟩
  refine if_neg fun compares => ?_
  obtain ⟨i, value, lostIff⟩ := foreseen.instant compares
  exact lostIff.mp lost (tells compares i value).1

/-- A node that stays is the same comparison, and with the same instant when its timestamp tells
that. -/
theorem ownInstant_restored {n : Node} (foreseen : ctx.Foreseen n) {v : Value}
    (judged : ctx.rejudge n = .ok (some v)) (below : List Node) :
    (ctx.ownInstant { n.reloaded with value := v, children := below }).length =
        (ctx.ownInstant n).length ∧
      (ctx.ownInstant { n.reloaded with value := v, children := below } = ctx.ownInstant n ↔
        ctx.TellsInstant n) := by
  have same := foreseen.compares
  have restored := foreseen.restored judged
  rw [reloaded_eq, ownInstant, ownInstant]
  dsimp only
  rw [same]
  cases compares : ctx.comparesInstants n.key n.predicate with
  | false => exact ⟨rfl, iff_of_true rfl fun instants => by simp [compares] at instants⟩
  | true =>
      obtain ⟨i, value, lostIff⟩ := foreseen.instant compares
      have fourDigits : i.InFourDigits := by
        by_contra more
        rw [lostIff.mpr more] at judged
        cases judged
      have instant : v = .date i.shown := by
        rw [restored, restoredValue, if_pos compares, value]
        rfl
      have tells : ctx.TellsInstant n ↔ i.OnClock := by
        simp [TellsInstant, compares, value, fourDigits]
      refine ⟨rfl, ?_⟩
      rw [tells, ← Instant.shown_eq_self_iff]
      simp [foreseen.key compares, instant, value]

end Context

/-! ### The whole tree -/

/-- Where no part grows, the whole is the same only when the parts are. -/
theorem append_append_eq_iff {α : Type} {front mid back front' mid' back' : List α}
    (fronts : front.length ≤ front'.length) (mids : mid.length ≤ mid'.length)
    (backs : back.length ≤ back'.length) :
    front ++ (mid ++ back) = front' ++ (mid' ++ back') ↔
      front = front' ∧ mid = mid' ∧ back = back' := by
  constructor
  · intro same
    have lengths := congrArg List.length same
    simp only [List.length_append] at lengths
    obtain ⟨first, others⟩ := List.append_inj same (by omega)
    exact ⟨first, List.append_inj others (by omega)⟩
  · rintro ⟨rfl, rfl, rfl⟩
    rfl

open Context in
/-- **Loading and filtering again adds no comparison with an instant**, and leaves them as they
were exactly when they are kept. -/
theorem instantComparisons_of_leaves {ctx : Context} (nodes : List Node)
    (foreseen : ∀ n ∈ everyAll nodes, ctx.Foreseen n) :
    ∀ depth again, Leaves ctx depth (reloadedAll nodes) again →
      (ctx.instantComparisons again).length ≤ (ctx.instantComparisons nodes).length ∧
        (ctx.instantComparisons again = ctx.instantComparisons nodes ↔ ctx.InstantsKept nodes) := by
  induction nodes using forest_induction with
  | nil =>
      intro depth again leaves
      cases leaves
      exact ⟨Nat.le_refl _, iff_of_true rfl instantsKept_nil⟩
  | cons n rest inner after =>
      intro depth again leaves
      obtain ⟨own, below, behind⟩ := forall_mem_everyAll_cons.mp foreseen
      rw [reloadedAll] at leaves
      rw [instantComparisons_cons, instantsKept_cons_iff, List.length_append, List.length_append]
      cases leaves with
      | idle judged others =>
          have lost : ctx.rejudge n = .ok none := judged
          obtain ⟨fewer, same⟩ := after behind depth again others
          refine ⟨by omega, ?_⟩
          -- What stood below the node is gone with it.
          show [] ++ ([] ++ ctx.instantComparisons again) = _ ↔ _
          rw [append_append_eq_iff (Nat.zero_le _) (Nat.zero_le _) fewer, eq_comm,
            ownInstant_eq_nil_iff own lost, same]
          constructor
          · rintro ⟨tells, none_, kept⟩
            exact ⟨⟨tells, fun _ => none_.symm⟩, instantsKept_of_none _ none_.symm, kept⟩
          · rintro ⟨⟨tells, uncovered⟩, -, kept⟩
            exact ⟨tells, (uncovered lost).symm, kept⟩
      | emptied group within inside others =>
          rw [reloaded_predicate] at group
          rw [reloaded_children] at inside
          have stays : ctx.rejudge n ≠ .ok none := by
            rw [rejudge_eq, group]
            rintro ⟨⟩
          have other : ctx.ownInstant n = [] := by
            rw [ownInstant, group]
            rfl
          obtain ⟨fewerBelow, sameBelow⟩ := inner below (depth + 1) [] inside
          obtain ⟨fewer, same⟩ := after behind depth again others
          refine ⟨by omega, ?_⟩
          show [] ++ (ctx.instantComparisons [] ++ ctx.instantComparisons again) = _ ↔ _
          rw [append_append_eq_iff (Nat.zero_le _) fewerBelow fewer, sameBelow, same, other]
          simp [stays, tellsInstant_of_ownInstant other]
      | @kept _ _ v kept rest' left judged within some_ inside others =>
          have judged : ctx.rejudge n = .ok (some v) := judged
          rw [reloaded_children] at inside
          have stays : ctx.rejudge n ≠ .ok none := by
            simp [judged]
          obtain ⟨length, sameHere⟩ := ownInstant_restored own judged kept
          obtain ⟨fewerBelow, sameBelow⟩ := inner below (depth + 1) kept inside
          obtain ⟨fewer, same⟩ := after behind depth left others
          rw [instantComparisons_cons, List.length_append, List.length_append, length]
          refine ⟨by dsimp only; omega, ?_⟩
          rw [append_append_eq_iff (Nat.le_of_eq length) fewerBelow fewer, sameHere, sameBelow,
            same]
          simp [stays]

/-! ## Trees as they were -/

mutual

/-- The tree once it was saved, loaded and filtered, when no node of it is lost. -/
def Node.restored (ctx : Context) : Node → Node
  | ⟨conjunction, key, predicate, v, children⟩ =>
      ⟨conjunction, reloadedKey predicate key, predicate,
        ctx.restoredValue ⟨conjunction, key, predicate, v, children⟩, restoredAll ctx children⟩

def restoredAll (ctx : Context) : List Node → List Node
  | [] => []
  | n :: rest => n.restored ctx :: restoredAll ctx rest

end

theorem Node.restored_eq (ctx : Context) (n : Node) :
    n.restored ctx = { n.reloaded with
      value := ctx.restoredValue n, children := restoredAll ctx n.children } := by
  cases n
  rfl

/-- The tree is the same when its keys and values are. -/
theorem restoredAll_eq_self {ctx : Context} (nodes : List Node)
    (kept : ∀ n ∈ everyAll nodes,
      reloadedKey n.predicate n.key = n.key ∧ ctx.restoredValue n = n.value) :
    restoredAll ctx nodes = nodes := by
  induction nodes using forest_induction with
  | nil => rfl
  | cons n rest inner after =>
      obtain ⟨⟨key, value⟩, below, behind⟩ := forall_mem_everyAll_cons.mp kept
      rw [restoredAll, Node.restored_eq, reloaded_eq, key, value, inner below, after behind]
      cases n
      rfl

/-- Without doubles nothing is lost but an instant whose year has more digits. -/
theorem Context.Foreseen.stays {ctx : Context} {n : Node} (foreseen : ctx.Foreseen n)
    (floatless : n.value.Without .float)
    (fourDigits : ctx.comparesInstants n.key n.predicate = true →
      ∀ i, n.value = .date i → i.InFourDigits) : ∃ v, ctx.rejudge n = .ok (some v) := by
  cases judged : ctx.rejudge n with
  | error f => exact absurd floatless (foreseen.refused judged).2.2
  | ok judgement =>
      cases judgement with
      | some v => exact ⟨v, rfl⟩
      | none =>
          rcases foreseen.lost judged with compares | doubles
          · obtain ⟨i, value, lostIff⟩ := foreseen.instant compares
            exact absurd (fourDigits compares i value) (lostIff.mp judged)
          · exact absurd floatless doubles

/-- A value is restored as it was when its instant is told, and nothing else is to be read. -/
theorem restoredValue_eq_self {ctx : Context} {n : Node} (foreseen : ctx.Foreseen n)
    (tells : ctx.TellsInstant n)
    (other : ctx.comparesInstants n.key n.predicate = false →
      n.value.Without .float ∧ n.value.Without .date) : ctx.restoredValue n = n.value := by
  rw [Context.restoredValue]
  split
  · rename_i compares
    obtain ⟨i, value, -⟩ := foreseen.instant compares
    rw [value]
    exact congrArg Value.date (Instant.shown_of_onClock (tells compares i value).2)
  · rename_i plain
    obtain ⟨floatless, dateless⟩ := other (Bool.eq_false_iff.mpr plain)
    exact Value.reloaded_eq_self dateless floatless

section

variable {s : Schema} {ctx : Context}

theorem Clean.alone {depth : Nat} {nodes : List Node} (clean : Clean s ctx depth nodes) :
    ∀ n ∈ everyAll nodes, CleanAlone s ctx n := by
  induction clean with
  | nil => nofun
  | cons own _ _ _ inner after => exact forall_mem_everyAll_cons.mpr ⟨own, inner, after⟩

theorem CleanAlone.children_ne_nil {n : Node} (alone : CleanAlone s ctx n)
    (group : n.predicate = .group) : n.children ≠ [] := by
  rw [CleanAlone, group] at alone
  exact alone

/-- The levels of a clean tree are within the limit once it was loaded. -/
theorem within_reloaded {depth : Nat} {n : Node} (alone : CleanAlone s ctx n)
    (within : n.children ≠ [] → depth + 1 ≤ ctx.limit) :
    n.reloaded.predicate = .group ∨ n.reloaded.children ≠ [] → depth + 1 ≤ ctx.limit := by
  rw [reloaded_predicate, reloaded_children]
  rintro (group | some_)
  · exact within (alone.children_ne_nil group)
  · refine within fun nothing => some_ ?_
    rw [nothing]
    rfl

/-- **A clean tree that was loaded is filtered without a fault** when no membership is refused. -/
theorem exists_leaves_reloadedAll {depth : Nat} {nodes : List Node}
    (clean : Clean s ctx depth nodes) (foreseen : ∀ n ∈ everyAll nodes, ctx.Foreseen n)
    (items : ∀ n ∈ everyAll nodes, n.predicate.isMembership = true → n.value.reloaded ≠ .null) :
    ∃ again, Leaves ctx depth (reloadedAll nodes) again := by
  induction clean with
  | nil => exact ⟨[], .nil⟩
  | @cons depth n rest alone within _ _ inner after =>
      obtain ⟨own, below, behind⟩ := forall_mem_everyAll_cons.mp foreseen
      obtain ⟨ownItems, itemsBelow, itemsBehind⟩ := forall_mem_everyAll_cons.mp items
      obtain ⟨left, others⟩ := after behind itemsBehind
      rw [reloadedAll]
      cases judged : ctx.rejudge n with
      | error f =>
          obtain ⟨membership, null, -⟩ := own.refused judged
          exact absurd null (ownItems membership)
      | ok judgement =>
          cases judgement with
          | none => exact ⟨left, .idle judged others⟩
          | some v =>
              obtain ⟨kept, inside⟩ := inner below itemsBelow
              rw [← reloaded_children] at inside
              have deeper := within_reloaded alone within
              by_cases emptied : n.reloaded.predicate = .group ∧ kept = []
              · obtain ⟨group, rfl⟩ := emptied
                exact ⟨left, .emptied group (deeper (.inl group)) inside others⟩
              · exact ⟨_, .kept judged deeper (fun group nothing => emptied ⟨group, nothing⟩) inside
                  others⟩

/-- **A clean tree that was loaded is filtered to the restored tree** when no node is lost. -/
theorem leaves_reloadedAll {depth : Nat} {nodes : List Node} (clean : Clean s ctx depth nodes)
    (foreseen : ∀ n ∈ everyAll nodes, ctx.Foreseen n)
    (stays : ∀ n ∈ everyAll nodes, ∃ v, ctx.rejudge n = .ok (some v)) :
    Leaves ctx depth (reloadedAll nodes) (restoredAll ctx nodes) := by
  induction clean with
  | nil => exact .nil
  | @cons depth n rest alone within _ _ inner after =>
      obtain ⟨own, below, behind⟩ := forall_mem_everyAll_cons.mp foreseen
      obtain ⟨⟨v, judged⟩, staysBelow, staysBehind⟩ := forall_mem_everyAll_cons.mp stays
      obtain rfl := own.restored judged
      have inside := inner below staysBelow
      rw [← reloaded_children] at inside
      rw [reloadedAll, restoredAll, Node.restored_eq]
      refine .kept judged (within_reloaded alone within) (fun group nothing => ?_) inside
        (after behind staysBehind)
      rw [reloaded_predicate] at group
      cases children : n.children with
      | nil => exact alone.children_ne_nil group children
      | cons first others => simp [children, restoredAll] at nothing

end

/-! ## The theorem -/

/-- What becomes of a filtered tree that is saved, loaded and filtered again. -/
structure Resaved (ctx : Context) (left : List Node) : Prop where
  /-- it is loaded when its keys and doubles can be read and it is not too deep -/
  loads : (∃ back, parseAll (serialize left) = .ok back) ↔
    Rereadable left ∧ ∀ n ∈ everyAll left, n.value.Legible
  /-- a fault ends filtering only at a membership whose only item is loaded as null -/
  ends : ∀ back, parseAll (serialize left) = .ok back →
    (∀ n ∈ everyAll left, n.predicate.isMembership = true → n.value.reloaded ≠ .null) →
    (filter ctx back).failure = none
  /-- the comparisons with instants are as they were exactly when they are kept -/
  instants : ∀ back again, parseAll (serialize left) = .ok back → filter ctx back = ⟨again, none⟩ →
    (ctx.instantComparisons again = ctx.instantComparisons left ↔ ctx.InstantsKept left)
  /-- no node is lost but for a double or the year of its instant -/
  stays : ∀ n ∈ everyAll left, n.value.Without .float →
    (ctx.comparesInstants n.key n.predicate = true → ∀ i, n.value = .date i → i.InFourDigits) →
    ∃ v, ctx.rejudge n = .ok (some v)
  /-- if none is lost the whole tree is left, with the values restored -/
  whole : ∀ back, parseAll (serialize left) = .ok back →
    (∀ n ∈ everyAll left, ∃ v, ctx.rejudge n = .ok (some v)) →
    filter ctx back = ⟨restoredAll ctx left, none⟩
  /-- these are as they were if there are no doubles, all instants are told, and none is compared
  with any other column -/
  unchanged : (∀ n ∈ everyAll left, n.WellKeyed ∧ ctx.TellsInstant n ∧
    (ctx.comparesInstants n.key n.predicate = false →
      n.value.Without .float ∧ n.value.Without .date)) → restoredAll ctx left = left

/-- **Saving and loading a filtered tree loses an instant when its timestamp does not tell it.**  An
instant is loaded as its timestamp, and a column of instants makes of that the instant shown when
its year has four digits, and null of any other; so it is the same instant exactly when its year
has four digits and a clock can show it.

A filtered tree that is saved, loaded and filtered again without a fault has the same comparisons
with columns of instants exactly when their instants are all such, and none of them stands below
a node that is lost for a double. -/
theorem filter_saved (s : Schema) (primary : String) (aliases : List (String × String))
    (limit : Nat) :
    (∀ type i, ColumnType.isTemporal type = true →
      ∃ v, Json.decode Value.ofDocument (Value.toJson (.date i)).compact = .ok v ∧
        Coercion.epochMillis type v = (if i.InFourDigits then .date i.shown else .null) ∧
        (Coercion.epochMillis type v = .date i ↔ i.InFourDigits ∧ i.OnClock)) ∧
    ∀ nodes left, filter (s.context primary aliases limit) nodes = ⟨left, none⟩ →
      PathsNamed left → Resaved (s.context primary aliases limit) left := by
  refine ⟨fun type i temporal => ⟨_, decode_date i, epochMillis_timestamp temporal i,
    epochMillis_timestamp_eq_iff temporal⟩, ?_⟩
  intro nodes left filtered named
  have clean : Clean s (s.context primary aliases limit) 0 left :=
    clean_of_leaves (leaves_of_filterAll nodes 0 left filtered)
  have foreseen : ∀ n ∈ everyAll left, (s.context primary aliases limit).Foreseen n :=
    fun n member => foreseen_of_clean (clean.alone n member) (named n member)
  have loaded : ∀ back, parseAll (serialize left) = .ok back → back = reloadedAll left :=
    fun back load => (parseAll_serialize_eq_ok_iff.mp load).2
  refine
    { loads := ⟨fun ⟨back, load⟩ => (parseAll_serialize_eq_ok_iff.mp load).1, fun readable =>
        ⟨_, parseAll_serialize_eq_ok_iff.mpr ⟨readable, rfl⟩⟩⟩
      ends := fun back load items => ?_
      instants := fun back again load whole => ?_
      stays := fun n member floatless fourDigits => ?_
      whole := fun back load stays => ?_
      unchanged := fun plain => restoredAll_eq_self left fun n member => ?_ }
  · obtain ⟨again, leaves⟩ := exists_leaves_reloadedAll clean foreseen items
    rw [loaded back load, filter, filterAll_of_leaves leaves]
  · rw [loaded back load] at whole
    have leaves := leaves_of_filterAll _ 0 again whole
    exact (instantComparisons_of_leaves left foreseen 0 again leaves).2
  · exact (foreseen n member).stays floatless fourDigits
  · rw [loaded back load]
    exact filterAll_of_leaves (leaves_reloadedAll clean foreseen stays)
  · obtain ⟨keyed, tells, other⟩ := plain n member
    exact ⟨(keyFor_eq_ok_iff.mp keyed.keyFor_text).2.symm,
      restoredValue_eq_self (foreseen n member) tells other⟩

/-- A quarter of a second into a leap day. -/
def leapDayInstant : Instant :=
  ⟨951782400, 250000000, by decide, by decide⟩

/-- A date in milliseconds, and an identity in a group. -/
def savedExample : List Node :=
  [.ofPath ⟨some "u", "born"⟩ (.compare .gte) (.int 951782400250),
    (Node.group [.ofPath ⟨none, "id"⟩ (.compare .gt) (.int 5)]).joined .and]

/-- What filtering leaves of it. -/
def savedExampleLeft : List Node :=
  [.ofPath ⟨some "u", "born"⟩ (.compare .gte) (.date leapDayInstant),
    (Node.group [.ofPath ⟨none, "id"⟩ (.compare .gt) (.int 5)]).joined .and]

/-- What is loaded then. -/
def savedExampleBack : List Node :=
  [.ofPath ⟨some "u", "born"⟩ (.compare .gte) (.string "2000-02-29T00:00:00.250Z"),
    (Node.group [.ofPath ⟨none, "id"⟩ (.compare .gt) (.int 5)]).joined .and]

theorem each_savedExampleLeft :
    ∀ n ∈ everyAll savedExampleLeft, n.WellKeyed ∧ n.value.Without .float ∧
      (∀ i, n.value = .date i → i.InFourDigits ∧ i.OnClock) ∧
      ((userSchema.context "users" [("u", "users")] 2).comparesInstants n.key n.predicate = false →
        n.value.Without .date) := by
  intro n member
  simp only [savedExampleLeft, everyAll, every, Node.group, Node.ofPath, Node.joined,
    List.append_nil, List.nil_append, List.cons_append, List.mem_cons, List.not_mem_nil,
    or_false] at member
  rcases member with rfl | rfl | rfl
  · refine ⟨⟨_, rfl, by decide, ?_⟩, .scalar (by decide) (by decide), ?_, ?_⟩
    · rintro name ⟨⟩
      decide
    · rintro i ⟨⟩
      decide
    · intro other
      cases other
  · refine ⟨rfl, .scalar (by decide) (by decide), ?_, fun _ => .scalar (by decide) (by decide)⟩
    rintro i ⟨⟩
  · refine ⟨⟨_, rfl, by decide, ?_⟩, .scalar (by decide) (by decide), ?_,
      fun _ => .scalar (by decide) (by decide)⟩
    · rintro name ⟨⟩
    · rintro i ⟨⟩

theorem load_savedExampleLeft : parseAll (serialize savedExampleLeft) = .ok savedExampleBack := by
  refine parseAll_serialize_of_keyed (fun n member => ?_) (by decide)
  obtain ⟨keyed, floatless, -⟩ := each_savedExampleLeft n member
  exact ⟨floatless, (keyFor_eq_ok_iff.mp keyed.keyFor_text).1⟩

theorem filter_saved_users :
    (∃ v, Json.decode Value.ofDocument (Value.toJson (.date leapDayInstant)).compact = .ok v ∧
      Coercion.epochMillis .date v = .date leapDayInstant) ∧
    filter (userSchema.context "users" [("u", "users")] 2) savedExample =
      ⟨savedExampleLeft, none⟩ ∧
    filter (userSchema.context "users" [("u", "users")] 2) savedExampleBack =
      ⟨savedExampleLeft, none⟩ := by
  obtain ⟨single, tree⟩ := filter_saved userSchema "users" [("u", "users")] 2
  obtain ⟨v, loaded, -, same⟩ := single .date leapDayInstant rfl
  have whole : filter (userSchema.context "users" [("u", "users")] 2) savedExample =
      ⟨savedExampleLeft, none⟩ := rfl
  have again := tree savedExample savedExampleLeft whole
    (pathsNamed_of_wellKeyed fun n member => (each_savedExampleLeft n member).1)
  have back := again.whole savedExampleBack load_savedExampleLeft fun n member => by
    obtain ⟨-, floatless, told, -⟩ := each_savedExampleLeft n member
    exact again.stays n member floatless fun _ i value => (told i value).1
  have unchanged := again.unchanged fun n member => by
    obtain ⟨keyed, floatless, told, dateless⟩ := each_savedExampleLeft n member
    exact ⟨keyed, fun _ => told, fun other => ⟨floatless, dateless other⟩⟩
  rw [unchanged] at back
  exact ⟨⟨v, loaded, same.mpr (by decide)⟩, whole, back⟩

/-- A second and a third after the start of a second in the middle of a minute. -/
def runOnInstant : Instant :=
  ⟨1709251004, 1333333333, by decide, by decide⟩

example : runOnInstant.timestamp = "2024-02-29T23:56:45.333333333Z" ∧
    Coercion.epochMillis .date (.string runOnInstant.timestamp) =
      .date ⟨1709251005, 333333333, by decide, by decide⟩ :=
  ⟨rfl, rfl⟩

/-- The first instant of the year 10000. -/
def lateInstant : Instant :=
  .ofSecond 253402300800 (by decide)

/-- A comparison with it, given in milliseconds. -/
def lateExample : List Node :=
  [.ofPath ⟨none, "born"⟩ (.compare .eq) (.int 253402300800000)]

/-- **A year of more digits is lost.**  Milliseconds in the year 10000 are an instant, and the
condition stays; saved and loaded it is a string with a sign, of which a column of instants
makes null, and the condition goes. -/
theorem lateInstant_lost :
    Coercion.epochMillis .date (.int 253402300800000) = .date lateInstant ∧
      Json.decode Value.ofDocument (Value.toJson (.date lateInstant)).compact =
        .ok (.string "+10000-01-01T00:00:00Z") ∧
      Coercion.epochMillis .date (.string "+10000-01-01T00:00:00Z") = .null ∧
      filter (userSchema.context "users" [] 2) lateExample =
        ⟨[.ofPath ⟨none, "born"⟩ (.compare .eq) (.date lateInstant)], none⟩ ∧
      parseAll (serialize [.ofPath ⟨none, "born"⟩ (.compare .eq) (.date lateInstant)]) =
        .ok [.ofPath ⟨none, "born"⟩ (.compare .eq) (.string "+10000-01-01T00:00:00Z")] ∧
      filter (userSchema.context "users" [] 2)
          [.ofPath ⟨none, "born"⟩ (.compare .eq) (.string "+10000-01-01T00:00:00Z")] =
        ⟨[], none⟩ := by
  have each : ∀ n ∈ everyAll [Node.ofPath ⟨none, "born"⟩ (.compare .eq) (.date lateInstant)],
      n.value.Without .float ∧ n.Keyed := by
    intro n member
    obtain rfl : n = Node.ofPath ⟨none, "born"⟩ (.compare .eq) (.date lateInstant) := by
      simpa [Node.ofPath, everyAll, every] using member
    exact ⟨.scalar (by decide) (by decide), .inr (.inr ⟨⟨none, "born"⟩, rfl⟩)⟩
  exact ⟨rfl, decode_date lateInstant, epochMillis_timestamp rfl lateInstant, rfl,
    parseAll_serialize_of_keyed each (by decide), rfl⟩

end Criteria
