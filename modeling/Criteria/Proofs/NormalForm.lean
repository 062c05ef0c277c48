/-
# Criteria.Proofs.NormalForm -- what filtering leaves is what it would not touch

Filtering by a schema, with `epochMillis` for the values, makes a forest `Clean`:
every comparison is of a declared field with a value that fits it and constrains it,
every membership has items and a single one constrains, every group has children, and
groups are nested within the limit.  `Clean` is defined by the schema alone.

A clean forest is left as it is.  So the clean forests are the fixed points of
filtering, and one walk reaches them (`filter_normal_form`).
-/
import Criteria.Proofs.Filtering

namespace Criteria

set_option autoImplicit false

/-- The context in which a schema answers and values become instants as `epochMillis`
says. -/
def Schema.context (s : Schema) (primary : String) (aliases : List (String × String))
    (limit : Nat) : Context where
  catalog := s.catalog
  primary := primary
  aliases := aliases
  coercion := .epochMillis
  limit := limit

/-! ## Clean conditions -/

/-- A comparison of a declared field with a value that constrains it; the value is an
instant where the column wants one. -/
def CleanComparison (s : Schema) (ctx : Context) (key : Key) (v : Value) : Prop :=
  ∃ p t column, key = .path p ∧ s.table? (ctx.schemaName p) = some t ∧
    t.column? p.field = some column ∧ v.isNull = false ∧ t.redundant p.field v = false ∧
    (column.type.isTemporal = true → ∃ i, v = .date i)

/-- A membership of several items, or of one that constrains a field of a known
table. -/
def CleanMembership (s : Schema) (ctx : Context) (key : Key) (v : Value) : Prop :=
  v.members ≠ [] ∧
    ∀ item, v.members = [item] →
      ∃ p t, key = .path p ∧ s.table? (ctx.schemaName p) = some t ∧
        t.redundant p.field item = false

/-- A node that is clean by itself, its children aside. -/
def CleanAlone (s : Schema) (ctx : Context) (n : Node) : Prop :=
  match n.predicate with
  | .compare _ => CleanComparison s ctx n.key n.value
  | .member _ => CleanMembership s ctx n.key n.value
  | .group => n.children ≠ []
  | _ => True

/-- A forest `depth` levels down in which every node, children of any node included, is
clean by itself, and all levels are within the limit. -/
inductive Clean (s : Schema) (ctx : Context) : Nat → List Node → Prop where
  | nil {depth : Nat} : Clean s ctx depth []
  | cons {depth : Nat} {n : Node} {rest : List Node} :
      CleanAlone s ctx n → (n.children ≠ [] → depth + 1 ≤ ctx.limit) →
      Clean s ctx (depth + 1) n.children → Clean s ctx depth rest →
      Clean s ctx depth (n :: rest)

/-! ## Judging by a schema -/

section

variable {s : Schema} {primary : String} {aliases : List (String × String)} {limit : Nat}

theorem resolve_context_eq_ok_iff {p : Path} {view : TableView} :
    (s.context primary aliases limit).resolve p = .ok view ↔
      ∃ t, s.table? ((s.context primary aliases limit).schemaName p) = some t ∧
        view = t.view :=
  Schema.resolve_catalog_eq_ok_iff

/-- The value that a comparison stays with is clean. -/
theorem cleanComparison_of_judged {key : Key} {v w : Value}
    (judged : (s.context primary aliases limit).judgeComparison key v = .ok (some w)) :
    CleanComparison s (s.context primary aliases limit) key w := by
  obtain ⟨p, view, type, key, resolved, redundant, declared, rfl, present⟩ :=
    Context.judgeComparison_eq_some_iff.mp judged
  obtain ⟨t, table, rfl⟩ := resolve_context_eq_ok_iff.mp resolved
  obtain ⟨column, found, rfl⟩ := Option.map_eq_some_iff.mp declared
  refine ⟨p, t, column, key, table, found, present, ?_, fun temporal => ?_⟩
  · cases temporal : column.type.isTemporal with
    | true =>
        obtain ⟨i, date⟩ := Coercion.exists_date_of_epochMillis temporal present
        have coerced : (s.context primary aliases limit).coercion column.type v = .date i := date
        rw [coerced]
        exact t.redundant_date p.field i
    | false =>
        have kept : (s.context primary aliases limit).coercion column.type v = v :=
          Coercion.epochMillis_other temporal v
        rw [kept]
        exact redundant
  · exact Coercion.exists_date_of_epochMillis temporal present

/-- A clean comparison stays as it is. -/
theorem judgeComparison_of_clean {key : Key} {v : Value}
    (clean : CleanComparison s (s.context primary aliases limit) key v) :
    (s.context primary aliases limit).judgeComparison key v = .ok (some v) := by
  obtain ⟨p, t, column, key, table, found, present, redundant, date⟩ := clean
  have kept : (s.context primary aliases limit).coercion column.type v = v := by
    cases temporal : column.type.isTemporal with
    | true =>
        obtain ⟨i, rfl⟩ := date temporal
        exact Coercion.epochMillis_date column.type i
    | false => exact Coercion.epochMillis_other temporal v
  refine Context.judgeComparison_eq_some_iff.mpr ⟨p, t.view, column.type, key, ?_, redundant, ?_,
    kept.symm, present⟩
  · exact resolve_context_eq_ok_iff.mpr ⟨t, table, rfl⟩
  · exact Option.map_eq_some_iff.mpr ⟨column, found, rfl⟩

theorem judgeMembership_eq_some_iff_clean {key : Key} {v w : Value} :
    (s.context primary aliases limit).judgeMembership key v = .ok (some w) ↔
      w = v ∧ CleanMembership s (s.context primary aliases limit) key v := by
  rw [Context.judgeMembership_eq_some_iff]
  constructor
  · rintro ⟨same, items, single⟩
    refine ⟨same, items, fun item alone => ?_⟩
    obtain ⟨p, view, key, resolved, redundant⟩ := single item alone
    obtain ⟨t, table, rfl⟩ := resolve_context_eq_ok_iff.mp resolved
    exact ⟨p, t, key, table, redundant⟩
  · rintro ⟨same, items, single⟩
    refine ⟨same, items, fun item alone => ?_⟩
    obtain ⟨p, t, key, table, redundant⟩ := single item alone
    exact ⟨p, t.view, key, resolve_context_eq_ok_iff.mpr ⟨t, table, rfl⟩, redundant⟩

/-- A node that stays is clean by itself, with the value and the children it stays
with. -/
theorem cleanAlone_of_judged {n : Node} {v : Value} {below : List Node}
    (judged : (s.context primary aliases limit).judge n.key n.predicate n.value = .ok (some v))
    (some_ : n.predicate = .group → below ≠ []) :
    CleanAlone s (s.context primary aliases limit) { n with value := v, children := below } := by
  cases predicate : n.predicate with
  | compare op =>
      rw [predicate, Context.judge] at judged
      simpa only [CleanAlone, predicate] using cleanComparison_of_judged judged
  | member negated =>
      rw [predicate, Context.judge] at judged
      obtain ⟨rfl, clean⟩ := judgeMembership_eq_some_iff_clean.mp judged
      simpa only [CleanAlone, predicate] using clean
  | group => simpa only [CleanAlone, predicate] using some_ predicate
  | _ => simp only [CleanAlone]

/-- A node that is clean by itself stays with its value. -/
theorem judge_of_cleanAlone {n : Node}
    (clean : CleanAlone s (s.context primary aliases limit) n) :
    (s.context primary aliases limit).judge n.key n.predicate n.value = .ok (some n.value) := by
  unfold CleanAlone at clean
  cases predicate : n.predicate with
  | compare op =>
      rw [predicate] at clean
      exact judgeComparison_of_clean clean
  | member negated =>
      rw [predicate] at clean
      exact judgeMembership_eq_some_iff_clean.mpr ⟨rfl, clean⟩
  | _ => rfl

/-! ## Filtering reaches the clean forests and stays there -/

theorem clean_of_leaves {depth : Nat} {nodes left : List Node}
    (leaves : Leaves (s.context primary aliases limit) depth nodes left) :
    Clean s (s.context primary aliases limit) depth left := by
  induction leaves with
  | nil => exact .nil
  | idle _ _ after => exact after
  | emptied _ _ _ _ _ after => exact after
  | @kept depth n v below rest left judged within some_ under _ inner after =>
      refine .cons (cleanAlone_of_judged judged some_) (fun remaining => within (.inr ?_)) inner
        after
      intro empty
      rw [empty] at under
      cases under
      exact remaining rfl

theorem leaves_of_clean {depth : Nat} {nodes : List Node}
    (clean : Clean s (s.context primary aliases limit) depth nodes) :
    Leaves (s.context primary aliases limit) depth nodes nodes := by
  induction clean with
  | nil => exact .nil
  | @cons depth n rest alone within _ _ inner after =>
      have some_ : n.predicate = .group → n.children ≠ [] := fun group => by
        rw [CleanAlone, group] at alone
        exact alone
      have kept := Leaves.kept (judge_of_cleanAlone alone)
        (fun children => within (children.elim some_ id)) some_ inner after
      obtain ⟨conjunction, key, predicate, v, children⟩ := n
      exact kept

end

/-- **Filtering has the clean forests for its results and for its fixed points.**  When
no fault ends it, what is left is clean; and it leaves a forest as it is, without a
fault, exactly when the forest is clean. -/
theorem filter_normal_form (s : Schema) (primary : String) (aliases : List (String × String))
    (limit : Nat) (nodes : List Node) :
    ((filter (s.context primary aliases limit) nodes).failure = none →
      Clean s (s.context primary aliases limit) 0
        (filter (s.context primary aliases limit) nodes).nodes) ∧
    (filter (s.context primary aliases limit) nodes = ⟨nodes, none⟩ ↔
      Clean s (s.context primary aliases limit) 0 nodes) := by
  refine ⟨fun whole => ?_, fun fixed => ?_, fun clean => ?_⟩
  · exact clean_of_leaves (leaves_of_whole whole)
  · exact clean_of_leaves (filterAll_eq_iff.mp fixed)
  · exact filterAll_eq_iff.mpr (leaves_of_clean clean)

/-- Users, for whom the identity is never absent. -/
def userSchema : Schema :=
  ⟨[⟨"users", [⟨"id", .integer, true⟩, ⟨"born", .date, false⟩]⟩]⟩

/-- A date behind an alias, a group in which nothing counts, and a membership with a
node below it. -/
def normalFormExample : List Node :=
  [.ofPath ⟨some "u", "born"⟩ (.compare .gte) (.string "2020-01-01"),
    (Node.group [.group [.ofPath ⟨none, "id"⟩ (.compare .eq) (.int 0)]]).joined .and,
    ⟨.and, .path ⟨some "u", "id"⟩, .member false, .int 5,
      [.ofPath ⟨none, "id"⟩ (.compare .eq) (.int 0), .ofPath ⟨none, "id"⟩ (.nullCheck true) .null]⟩]

theorem filter_normal_form_users :
    (filter (userSchema.context "users" [("u", "users")] 2) normalFormExample).failure = none ∧
      (filter (userSchema.context "users" [("u", "users")] 2) normalFormExample).nodes.length = 2 ∧
      Clean userSchema (userSchema.context "users" [("u", "users")] 2) 0
        (filter (userSchema.context "users" [("u", "users")] 2) normalFormExample).nodes :=
  ⟨rfl, rfl, (filter_normal_form userSchema "users" [("u", "users")] 2 normalFormExample).1 rfl⟩

end Criteria
