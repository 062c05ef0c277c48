/-
# Criteria.Proofs.ReloadedConditions -- judging a condition that was saved and loaded

An instant is saved as its timestamp and loaded as a string, and filtering makes an instant of
the string again where a column wants one.  For a year in four digits it is the instant that the
timestamp shows; any other year is written with a sign, which no reader of timestamps takes, and
the string becomes null (`epochMillis_timestamp`).  Elsewhere the string is a string, and no more
"not set" than the instant was (`Table.redundant_reloaded`).

So it can be told of a clean condition what filtering makes of it once it was loaded
(`foreseen_of_clean`).  A comparison with a column of instants is lost when the year of its
instant has more digits, and has the instant that was shown otherwise.  All other conditions have
the values that were loaded, unless these constrain nothing any more, as some doubles do.
-/
import Criteria.Proofs.KeyClasses
import Criteria.Proofs.Timestamps

namespace Criteria

set_option autoImplicit false

open Calendar (Instant padded yearChars)
open Node

/-! ## One instant -/

/-- An instant is loaded as the string of its timestamp. -/
theorem decode_date (i : Instant) :
    Json.decode Value.ofDocument (Value.toJson (.date i)).compact = .ok (.string i.timestamp) := by
  rw [Json.decode_compact _ (Value.bounded_toJson (.date i))]
  exact Value.ofDocument_toJson.mpr ⟨.scalar nofun nofun, Nat.zero_le _, rfl⟩

/-- **What a column of instants makes of that string.** -/
theorem epochMillis_timestamp {type : ColumnType} (temporal : type.isTemporal = true)
    (i : Instant) :
    Coercion.epochMillis type (.string i.timestamp) =
      if i.InFourDigits then .date i.shown else .null := by
  rw [Coercion.epochMillis, if_pos temporal, Coercion.toInstant?, Instant.readInstant?_timestamp]
  split <;> rfl

/-- **It makes the same instant of it exactly when the timestamp tells it**: its year has four
digits, and a clock can show it. -/
theorem epochMillis_timestamp_eq_iff {type : ColumnType} (temporal : type.isTemporal = true)
    {i : Instant} :
    Coercion.epochMillis type (.string i.timestamp) = .date i ↔ i.InFourDigits ∧ i.OnClock := by
  rw [epochMillis_timestamp temporal]
  split
  · rename_i fourDigits
    simp only [Value.date.injEq, Instant.shown_eq_self_iff, fourDigits, true_and]
  · rename_i more
    simp [more]

/-! ## Timestamps are no numerals -/

/-- Behind its sign a year is digits. -/
theorem sign_yearChars (year : Int) (rest : List Char) :
    (Decimal.Numeral.sign (yearChars year ++ rest)).2 = padded 4 year.natAbs ++ rest := by
  rcases Calendar.yearChars_cases year with ⟨-, text⟩ | ⟨-, text⟩ | ⟨-, -, text⟩ <;> rw [text]
  · rfl
  · rfl
  · obtain ⟨c, digits, digit, front⟩ := Calendar.exists_padded_eq_cons 4 year.natAbs
    rw [front, List.cons_append, Decimal.Numeral.sign.eq_def]
    split
    · rename_i minus
      cases minus
      cases digit
    · rename_i plus
      cases plus
      cases digit
    · rfl

/-- The dash behind the year keeps a timestamp from being a numeral. -/
theorem not_denotesZero_timestampChars (i : Instant) :
    Decimal.denotesZero i.timestampChars = false := by
  obtain ⟨rest, text⟩ : ∃ rest, i.timestampChars = yearChars i.date.year ++ '-' :: rest :=
    ⟨_, by simp [Instant.timestampChars, Calendar.Date.chars]; rfl⟩
  have unsigned := sign_yearChars i.date.year ('-' :: rest)
  have none_ : Decimal.Numeral.read? i.timestampChars = none := by
    rw [text, Decimal.Numeral.read?]
    cases sign : Decimal.Numeral.sign (yearChars i.date.year ++ '-' :: rest) with
    | mk negative digits =>
        rw [sign] at unsigned
        simp only at unsigned
        simp [unsigned, List.dropWhile_append_of_pos Calendar.isDigit_of_mem_padded,
          Decimal.Numeral.fraction, Decimal.Numeral.exponent?]
  rw [Decimal.denotesZero, none_]
  rfl

/-! ## Values that were loaded -/

namespace Value

theorem isNull_reloaded {v : Value} (floatless : v.Without .float) :
    v.reloaded.isNull = v.isNull := by
  cases v with
  | float x =>
      cases floatless with
      | scalar _ other => exact absurd rfl other
  | _ => rfl

theorem reloaded_ne_null {v : Value} (floatless : v.Without .float) (present : v ≠ .null) :
    v.reloaded ≠ .null := by
  intro null
  have before := isNull_reloaded floatless
  rw [null, eq_comm, isNull, isNull_iff] at before
  exact present before

theorem isZero_reloaded {v : Value} (floatless : v.Without .float) :
    v.reloaded.isZero = v.isZero := by
  cases v with
  | float x =>
      cases floatless with
      | scalar _ other => exact absurd rfl other
  | date i =>
      rw [reloaded, isZero, Instant.timestamp, String.toList_ofList,
        Path.trim_of_shown i.shown_timestampChars, not_denotesZero_timestampChars]
      rfl
  | _ => rfl

/-- A double alone may be loaded as null, and then there is no item. -/
theorem members_reloaded {v : Value} (present : v.reloaded ≠ .null) :
    v.reloaded.members = v.members.map reloaded := by
  cases v with
  | array items => exact reloadedItems_eq_map items
  | float x =>
      rw [reloaded] at present ⊢
      rcases reread_cases x with ⟨read, -⟩ | ⟨y, read, -⟩ | ⟨f, read, -⟩
      · exact absurd (by rw [read]; rfl) present
      · simp only [members, List.map_cons, List.map_nil, reloaded, read, Except.toOption,
          Option.getD_some]
      · exact absurd (by rw [read]; rfl) present
  | _ => rfl

theorem Without.members {v : Value} {k : Kind} (without : v.Without k) :
    ∀ item ∈ v.members, item.Without k := by
  cases v with
  | array items => exact without.items
  | null => nofun
  | _ => exact List.forall_mem_singleton.mpr without

/-- The instant that the timestamp of an instant shows. -/
def shown : Value → Value
  | .date i => .date i.shown
  | v => v

end Value

/-- **A value constrains a field after loading when it did before**, if there is no double. -/
theorem Table.redundant_reloaded (t : Table) (field : String) {v : Value}
    (floatless : v.Without .float) : t.redundant field v.reloaded = t.redundant field v := by
  rw [redundant, redundant, Value.isNull_reloaded floatless, Value.isZero_reloaded floatless]

/-! ## Keys that were loaded -/

/-- Every path among the keys is one of names. -/
def PathsNamed (nodes : List Node) : Prop :=
  ∀ n ∈ everyAll nodes, ∀ p, n.key = .path p → p.Named

/-- What was read or built has such keys. -/
theorem pathsNamed_of_wellKeyed {nodes : List Node}
    (keyed : ∀ n ∈ everyAll nodes, n.WellKeyed) : PathsNamed nodes := by
  intro n member p path
  have own := keyed n member
  rw [WellKeyed, path] at own
  cases predicate : n.predicate with
  | group =>
      rw [predicate] at own
      cases own
  | fragment =>
      rw [predicate] at own
      obtain ⟨sql, raw⟩ := own
      cases raw
  | _ =>
      rw [predicate] at own
      obtain ⟨q, same, named⟩ := own
      obtain rfl := Key.path.inj same
      exact named

theorem reloadedKey_of_named {predicate : Predicate} {p : Path} (named : p.Named)
    (group : predicate ≠ .group) (fragment : predicate ≠ .fragment) :
    reloadedKey predicate (.path p) = .path p := by
  have read : Path.parse (Key.path p).text = .ok p := Path.parse_text_of_names named.1 named.2
  cases predicate with
  | group => exact absurd rfl group
  | fragment => exact absurd rfl fragment
  | _ => simp only [reloadedKey, read]

/-! ## Judging what was loaded -/

namespace Context

/-- A comparison with a column of instants. -/
def comparesInstants (ctx : Context) (key : Key) (predicate : Predicate) : Bool :=
  match predicate, ctx.locate key with
  | .compare _, .ok (field, table) => (table.type? field).any ColumnType.isTemporal
  | _, _ => false

/-- Judge a node once it was saved and loaded. -/
def rejudge (ctx : Context) (n : Node) : Except Fault (Option Value) :=
  ctx.judge n.reloaded.key n.reloaded.predicate n.reloaded.value

theorem rejudge_eq (ctx : Context) (n : Node) :
    ctx.rejudge n = ctx.judge (reloadedKey n.predicate n.key) n.predicate n.value.reloaded := by
  rw [rejudge, reloaded_eq]

/-- The value that a node has once it was loaded and filtered: a comparison with a column of
instants has the instant that was shown. -/
def restoredValue (ctx : Context) (n : Node) : Value :=
  if ctx.comparesInstants n.key n.predicate then n.value.shown else n.value.reloaded

/-- What filtering can make of the node once it was saved and loaded. -/
structure Foreseen (ctx : Context) (n : Node) : Prop where
  /-- it stays with the value restored -/
  restored : ∀ {v}, ctx.rejudge n = .ok (some v) → v = ctx.restoredValue n
  /-- it is refused only as a membership of a double that is loaded as null -/
  refused : ∀ {f}, ctx.rejudge n = .error f →
    n.predicate.isMembership = true ∧ n.value.reloaded = .null ∧ ¬ n.value.Without .float
  /-- it is lost only for its instant or for doubles -/
  lost : ctx.rejudge n = .ok none →
    ctx.comparesInstants n.key n.predicate = true ∨ ¬ n.value.Without .float
  /-- a comparison with a column of instants is lost when the year has more digits -/
  instant : ctx.comparesInstants n.key n.predicate = true →
    ∃ i, n.value = .date i ∧ (ctx.rejudge n = .ok none ↔ ¬ i.InFourDigits)
  /-- it is such a comparison as before -/
  compares : ctx.comparesInstants (reloadedKey n.predicate n.key) n.predicate =
    ctx.comparesInstants n.key n.predicate
  /-- such a comparison keeps its key -/
  key : ctx.comparesInstants n.key n.predicate = true → reloadedKey n.predicate n.key = n.key

/-- A comparison with an instant. -/
theorem foreseen_of_instant {ctx : Context} {n : Node} {i : Instant}
    (compares : ctx.comparesInstants n.key n.predicate = true)
    (key : reloadedKey n.predicate n.key = n.key) (value : n.value = .date i)
    (judged : ctx.rejudge n =
      .ok (if i.InFourDigits then some (ctx.restoredValue n) else none)) : ctx.Foreseen n where
  restored := by
    intro v same
    rw [judged, Except.ok.injEq, Option.ite_none_right_eq_some] at same
    exact (Option.some.inj same.2).symm
  refused := by
    intro f refused
    rw [judged] at refused
    cases refused
  lost := fun _ => .inl compares
  instant := fun _ => ⟨i, value, by simp [judged]⟩
  compares := by rw [key]
  key := fun _ => key

/-- Any other node. -/
theorem foreseen_of_other {ctx : Context} {n : Node}
    (other : ∀ key, key = n.key ∨ key = reloadedKey n.predicate n.key →
      ctx.comparesInstants key n.predicate = false)
    (restored : ∀ {v}, ctx.rejudge n = .ok (some v) → v = n.value.reloaded)
    (refused : ∀ {f}, ctx.rejudge n = .error f →
      n.predicate.isMembership = true ∧ n.value.reloaded = .null)
    (stays : n.value.Without .float → ctx.rejudge n = .ok (some n.value.reloaded)) :
    ctx.Foreseen n := by
  have own := other n.key (.inl rfl)
  exact
    { restored := fun same => by
        rw [Context.restoredValue, own]
        exact restored same
      refused := fun error => ⟨(refused error).1, (refused error).2, fun floatless => by
        rw [stays floatless] at error
        cases error⟩
      lost := fun lost => .inr fun floatless => by
        rw [stays floatless] at lost
        cases lost
      instant := fun instants => by simp [own] at instants
      compares := by rw [own, other _ (.inr rfl)]
      key := fun instants => by simp [own] at instants }

/-- Groups, null checks and fragments are not judged. -/
theorem foreseen_of_unjudged {ctx : Context} {n : Node}
    (noComparison : ∀ op, n.predicate ≠ .compare op)
    (noMembership : ∀ negated, n.predicate ≠ .member negated) : ctx.Foreseen n := by
  have kept : ctx.rejudge n = .ok (some n.value.reloaded) := by
    rw [rejudge_eq]
    cases predicate : n.predicate with
    | compare op => exact absurd predicate (noComparison op)
    | member negated => exact absurd predicate (noMembership negated)
    | _ => rfl
  refine foreseen_of_other (fun key _ => ?_) (fun same => ?_) (fun refused => ?_) fun _ => kept
  · cases predicate : n.predicate with
    | compare op => exact absurd predicate (noComparison op)
    | _ => rfl
  · simpa [kept] using same.symm
  · rw [kept] at refused
    cases refused

theorem judgeComparison_of_located {ctx : Context} {key : Key} {field : String} {table : TableView}
    {type : ColumnType} (located : ctx.locate key = .ok (field, table))
    (declared : table.type? field = some type) (v : Value) :
    ctx.judgeComparison key v =
      .ok (if table.redundant field v ∨ (ctx.coercion type v).isNull then none
        else some (ctx.coercion type v)) := by
  simp only [judgeComparison, located, declared, bind, Except.bind, pure, Except.pure]
  cases table.redundant field v <;> cases (ctx.coercion type v).isNull <;> rfl

theorem rejudge_of_membership (ctx : Context) {n : Node} {negated : Bool}
    (predicate : n.predicate = .member negated) :
    ctx.rejudge n =
      ctx.judgeMembership (reloadedKey n.predicate n.key) n.value.reloaded := by
  rw [rejudge_eq, predicate]
  rfl

/-- A membership with items is not refused when a single item is one of a known table. -/
theorem judgeMembership_cases {ctx : Context} {key : Key} {v : Value} (items : v.members ≠ [])
    (single : ∀ item, v.members = [item] → ∃ field table, ctx.locate key = .ok (field, table)) :
    ctx.judgeMembership key v = .ok none ∨ ctx.judgeMembership key v = .ok (some v) := by
  simp only [judgeMembership, members?]
  cases found : v.members with
  | nil => exact absurd found items
  | cons item others =>
      cases others with
      | cons second others => exact .inr rfl
      | nil =>
          obtain ⟨field, table, located⟩ := single item found
          simp only [located, bind, Except.bind, pure, Except.pure]
          cases table.redundant field item
          · exact .inr rfl
          · exact .inl rfl

end Context

section

variable {s : Schema} {primary : String} {aliases : List (String × String)} {limit : Nat}

/-- **A clean comparison once it was loaded.** -/
theorem foreseen_of_cleanComparison {n : Node} {op : Comparison}
    (predicate : n.predicate = .compare op)
    (clean : CleanComparison s (s.context primary aliases limit) n.key n.value)
    (named : ∀ p, n.key = .path p → p.Named) : (s.context primary aliases limit).Foreseen n := by
  obtain ⟨p, t, column, path, table, found, present, redundant, date⟩ := clean
  have key : reloadedKey n.predicate n.key = n.key := by
    rw [path, predicate]
    exact reloadedKey_of_named (named p path) nofun nofun
  have located : (s.context primary aliases limit).locate n.key = .ok (p.field, t.view) :=
    Context.locate_eq_ok_iff.mpr ⟨p, path, rfl, resolve_context_eq_ok_iff.mpr ⟨t, table, rfl⟩⟩
  have declared : t.view.type? p.field = some column.type :=
    Option.map_eq_some_iff.mpr ⟨column, found, rfl⟩
  have compares : (s.context primary aliases limit).comparesInstants n.key n.predicate =
      column.type.isTemporal := by
    simp [Context.comparesInstants, predicate, located, declared]
  have judged : (s.context primary aliases limit).rejudge n =
      .ok (if t.redundant p.field n.value.reloaded ∨
          (Coercion.epochMillis column.type n.value.reloaded).isNull then none
        else some (Coercion.epochMillis column.type n.value.reloaded)) := by
    rw [Context.rejudge_eq, key, predicate]
    exact Context.judgeComparison_of_located located declared _
  cases temporal : column.type.isTemporal with
  | true =>
      obtain ⟨i, value⟩ := date temporal
      have floatless : n.value.Without .float := by
        rw [value]
        exact .scalar nofun nofun
      rw [temporal] at compares
      refine Context.foreseen_of_instant compares key value ?_
      rw [judged, t.redundant_reloaded p.field floatless, redundant, value, Value.reloaded,
        epochMillis_timestamp temporal, Context.restoredValue, if_pos compares, value]
      split <;> rfl
  | false =>
      rw [temporal] at compares
      rw [Coercion.epochMillis_other temporal] at judged
      refine Context.foreseen_of_other (fun other same => ?_) (fun same => ?_) (fun refused => ?_)
        fun floatless => ?_
      · obtain rfl : other = n.key := same.elim id fun loaded => loaded.trans key
        exact compares
      · rw [judged, Except.ok.injEq, Option.ite_none_left_eq_some] at same
        exact (Option.some.inj same.2).symm
      · rw [judged] at refused
        cases refused
      · rw [judged, t.redundant_reloaded p.field floatless, redundant,
          Value.isNull_reloaded floatless, present]
        rfl

/-- A clean membership that was not loaded as null has items still, and a single one is of the same
field as before. -/
theorem CleanMembership.reloaded {ctx : Context} {n : Node} {negated : Bool}
    (clean : CleanMembership s ctx n.key n.value) (predicate : n.predicate = .member negated)
    (named : ∀ p, n.key = .path p → p.Named) (present : n.value.reloaded ≠ .null) :
    n.value.reloaded.members ≠ [] ∧ ∀ item, n.value.reloaded.members = [item] →
      ∃ first p t, n.value.members = [first] ∧ item = first.reloaded ∧
        reloadedKey n.predicate n.key = .path p ∧ s.table? (ctx.schemaName p) = some t ∧
        t.redundant p.field first = false := by
  obtain ⟨items, single⟩ := clean
  rw [Value.members_reloaded present]
  refine ⟨by simpa using items, fun item only => ?_⟩
  obtain ⟨first, members, reloaded⟩ := List.map_eq_singleton_iff.mp only
  obtain ⟨p, t, path, table, redundant⟩ := single first members
  refine ⟨first, p, t, members, reloaded.symm, ?_, table, redundant⟩
  rw [path]
  exact reloadedKey_of_named (named p path) (by rw [predicate]; nofun) (by rw [predicate]; nofun)

/-- A clean membership without doubles stays. -/
theorem CleanMembership.rejudge_of_floatless {n : Node} {negated : Bool}
    (clean : CleanMembership s (s.context primary aliases limit) n.key n.value)
    (predicate : n.predicate = .member negated) (named : ∀ p, n.key = .path p → p.Named)
    (floatless : n.value.Without .float) :
    (s.context primary aliases limit).rejudge n = .ok (some n.value.reloaded) := by
  have notNull : n.value ≠ .null := fun null => clean.1 (by rw [null]; rfl)
  obtain ⟨items, single⟩ :=
    clean.reloaded predicate named (Value.reloaded_ne_null floatless notNull)
  rw [Context.rejudge_of_membership _ predicate]
  refine judgeMembership_eq_some_iff_clean.mpr ⟨rfl, items, fun item only => ?_⟩
  obtain ⟨first, p, t, members, rfl, path, table, redundant⟩ := single item only
  have itemFloatless : first.Without .float :=
    floatless.members first (by rw [members]; exact List.mem_singleton_self _)
  exact ⟨p, t, path, table, (t.redundant_reloaded p.field itemFloatless).trans redundant⟩

/-- A clean membership is refused only when it was loaded as null. -/
theorem CleanMembership.rejudge_ne_error {n : Node} {negated : Bool}
    (clean : CleanMembership s (s.context primary aliases limit) n.key n.value)
    (predicate : n.predicate = .member negated) (named : ∀ p, n.key = .path p → p.Named)
    (present : n.value.reloaded ≠ .null) (f : Fault) :
    (s.context primary aliases limit).rejudge n ≠ .error f := by
  obtain ⟨items, single⟩ := clean.reloaded predicate named present
  have located : ∀ item, n.value.reloaded.members = [item] → ∃ field table,
      (s.context primary aliases limit).locate (reloadedKey n.predicate n.key) =
        .ok (field, table) := by
    intro item only
    obtain ⟨_, p, t, -, -, path, table, -⟩ := single item only
    exact ⟨p.field, t.view, Context.locate_eq_ok_iff.mpr
      ⟨p, path, rfl, resolve_context_eq_ok_iff.mpr ⟨t, table, rfl⟩⟩⟩
  rw [Context.rejudge_of_membership _ predicate]
  rcases Context.judgeMembership_cases items located with dropped | kept
  · simp [dropped]
  · simp [kept]

/-- **A clean membership once it was loaded.** -/
theorem foreseen_of_cleanMembership {n : Node} {negated : Bool}
    (predicate : n.predicate = .member negated)
    (clean : CleanMembership s (s.context primary aliases limit) n.key n.value)
    (named : ∀ p, n.key = .path p → p.Named) : (s.context primary aliases limit).Foreseen n := by
  refine Context.foreseen_of_other (fun key _ => ?_) (fun same => ?_) (fun refused => ?_)
    (clean.rejudge_of_floatless predicate named)
  · rw [predicate]
    rfl
  · rw [Context.rejudge_of_membership _ predicate, Context.judgeMembership_eq_some_iff] at same
    exact same.1
  · refine ⟨by rw [predicate]; rfl, ?_⟩
    by_contra present
    exact clean.rejudge_ne_error predicate named present _ refused

/-- **It is foreseen of every clean node what filtering makes of it once it was loaded.** -/
theorem foreseen_of_clean {n : Node} (clean : CleanAlone s (s.context primary aliases limit) n)
    (named : ∀ p, n.key = .path p → p.Named) : (s.context primary aliases limit).Foreseen n := by
  unfold CleanAlone at clean
  cases predicate : n.predicate with
  | compare op =>
      rw [predicate] at clean
      exact foreseen_of_cleanComparison predicate clean named
  | member negated =>
      rw [predicate] at clean
      exact foreseen_of_cleanMembership predicate clean named
  | _ => exact Context.foreseen_of_unjudged (by simp [predicate]) (by simp [predicate])

end

end Criteria
