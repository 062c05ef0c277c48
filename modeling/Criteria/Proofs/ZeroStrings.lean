/-
# Criteria.Proofs.ZeroStrings -- which strings count as zero

A string against a primitive column of numbers counts as "not set" when it writes a number whose
nearest double is zero.  These are the numbers of at most half the least positive double
(`roundsToZero_iff`), zero itself and a good many others: `1e-400` is one of them.

Filtering drops the comparison with such a string, or the membership of it alone, and keeps those
with any other string (`zero_strings_are_dropped`).
-/
import Criteria.Proofs.IdleConditions
import Criteria.Proofs.WrittenNumbers
import Mathlib.Algebra.Order.Field.Power
import Mathlib.Tactic.Positivity

namespace Criteria

set_option autoImplicit false

namespace Decimal

/-! ## Rounding to zero -/

/-- The least positive double. -/
def leastDouble : ℚ :=
  1 / 2 ^ 1074

theorem leastDouble_half : leastDouble / 2 = 1 / 2 ^ 1075 := by
  rw [leastDouble, div_div, ← pow_succ]

theorem leastDouble_half_pos : 0 < leastDouble / 2 := by
  rw [leastDouble_half]
  positivity

theorem leastDouble_half_lt_one : leastDouble / 2 < 1 := by
  rw [leastDouble_half, div_lt_one (by positivity)]
  exact one_lt_pow₀ (by norm_num) (by decide)

theorem div_pow_le_div_pow_iff (size shift bits : Nat) :
    (size : ℚ) / 10 ^ shift ≤ 1 / 2 ^ bits ↔ size * Nat.pow 2 bits ≤ Nat.pow 10 shift := by
  rw [div_le_div_iff₀ (by positivity) (by positivity), one_mul, Nat.pow_eq, Nat.pow_eq]
  exact_mod_cast Iff.rfl

/-- With so many places more than digits there is no need to compare. -/
theorem mul_pow_le_of_places {digits : List Char} (all : ∀ c ∈ digits, c.isDigit = true)
    {bits more shift : Nat} (most : Nat.pow 2 bits ≤ Nat.pow 10 more)
    (places : digits.length + more ≤ shift) :
    digitsValue digits * Nat.pow 2 bits ≤ Nat.pow 10 shift := by
  have few : digitsValue digits ≤ Nat.pow 10 digits.length := (digitsValue_lt all).le
  calc digitsValue digits * Nat.pow 2 bits ≤ Nat.pow 10 digits.length * Nat.pow 10 more :=
        Nat.mul_le_mul few most
    _ = Nat.pow 10 (digits.length + more) := (Nat.pow_add ..).symm
    _ ≤ Nat.pow 10 shift := Nat.pow_le_pow_right (by decide) places

theorem compared_iff {digits : List Char} (all : ∀ c ∈ digits, c.isDigit = true)
    {bits more : Nat} (most : Nat.pow 2 bits ≤ Nat.pow 10 more) (shift : Nat) :
    (digits.length + more ≤ shift ∨ digitsValue digits * Nat.pow 2 bits ≤ Nat.pow 10 shift) ↔
      (digitsValue digits : ℚ) / 10 ^ shift ≤ 1 / 2 ^ bits := by
  rw [div_pow_le_div_pow_iff]
  exact or_iff_right_of_imp (mul_pow_le_of_places all most)

theorem two_pow_le_ten_pow : Nat.pow 2 1075 ≤ Nat.pow 10 324 := by
  decide +kernel

theorem roundsToZero_eq_true_iff {m : Numeral} :
    m.roundsToZero = true ↔
      digitsValue m.digits = 0 ∨ m.scale < 0 ∧ (m.digits.length + 324 ≤ (-m.scale).toNat ∨
        digitsValue m.digits * Nat.pow 2 1075 ≤ Nat.pow 10 (-m.scale).toNat) := by
  simp only [Numeral.roundsToZero, Numeral.isZero, Bool.or_eq_true, Bool.and_eq_true,
    decide_eq_true_eq, beq_iff_eq]

/-- **The nearest double is zero up to half of the least positive one**, which is the middle. -/
theorem roundsToZero_iff {m : Numeral} (all : ∀ c ∈ m.digits, c.isDigit = true) :
    m.roundsToZero = true ↔ |m.value| ≤ leastDouble / 2 := by
  have size : |m.value| = digitsValue m.digits * (10 : ℚ) ^ m.scale := by
    rw [Numeral.value, abs_signed, abs_of_nonneg (by positivity)]
  rw [roundsToZero_eq_true_iff, size]
  by_cases zero : digitsValue m.digits = 0
  · have nothing : (digitsValue m.digits : ℚ) * 10 ^ m.scale = 0 := by
      rw [zero, Nat.cast_zero, zero_mul]
    rw [nothing]
    exact ⟨fun _ => leastDouble_half_pos.le, fun _ => .inl zero⟩
  by_cases negative : m.scale < 0
  · obtain ⟨shift, scale⟩ : ∃ shift : Nat, m.scale = -(shift : Int) := ⟨(-m.scale).toNat, by omega⟩
    have shifted : (-m.scale).toNat = shift := by omega
    have most := two_pow_le_ten_pow
    rw [shifted, scale, zpow_neg, zpow_natCast, ← div_eq_mul_inv, leastDouble_half]
    generalize 1075 = bits at most ⊢
    rw [compared_iff all most]
    constructor
    · rintro (none_ | ⟨-, small⟩)
      · exact absurd none_ zero
      · exact small
    · exact fun small => .inr ⟨by omega, small⟩
  · -- An integer that is not zero is too large.
    have large : (1 : ℚ) ≤ digitsValue m.digits * 10 ^ m.scale := by
      have digits : (1 : ℚ) ≤ digitsValue m.digits := by
        exact_mod_cast Nat.one_le_iff_ne_zero.mpr zero
      exact one_le_mul_of_one_le_of_one_le digits
        (one_le_zpow₀ (by norm_num) (Int.not_lt.mp negative))
    constructor
    · rintro (none_ | ⟨less, -⟩)
      · exact absurd none_ zero
      · exact absurd less negative
    · exact fun within => absurd (large.trans within) (not_le.mpr leastDouble_half_lt_one)

/-- **A written number counts as zero when its size is at most that.** -/
theorem denotesZero_chars (n : WrittenNumber) :
    denotesZero n.chars = true ↔ |n.value| ≤ leastDouble / 2 := by
  have all : ∀ c ∈ n.numeral.digits, c.isDigit = true := by
    intro c member
    rcases List.mem_append.mp member with whole | places
    · exact n.whole.all c whole
    · exact n.places.all c places
  rw [denotesZero, read?_chars, Option.any_some, roundsToZero_iff all, value_numeral]

/-- Nothing else does. -/
theorem exists_of_denotesZero {text : List Char} (zero : denotesZero text = true) :
    ∃ n : WrittenNumber, text = n.chars := by
  obtain ⟨m, read, -⟩ := (Option.any_eq_true _ _).mp zero
  obtain ⟨n, text, -⟩ := exists_of_read? read
  exact ⟨n, text⟩

end Decimal

open Decimal (WrittenNumber leastDouble denotesZero)

/-! ## Conditions on such a column -/

/-- The node compares a primitive column of numbers with a string, or asks for membership of the
string alone. -/
structure OnNumbers (s : Schema) (ctx : Context) (n : Node) (text : String) : Prop where
  column : ∃ p t c, n.key = .path p ∧ s.table? (ctx.schemaName p) = some t ∧
    t.column? p.field = some c ∧ c.primitive = true ∧ c.type.isNumeric = true
  string : (∃ op, n.predicate = .compare op ∧ n.value = .string text) ∨
    ∃ negated, n.predicate = .member negated ∧ n.value.members = [.string text]

theorem ColumnType.isTemporal_of_isNumeric {type : ColumnType} (numeric : type.isNumeric = true) :
    type.isTemporal = false := by
  cases type <;> first | rfl | cases numeric

/-- On such a column only the zero of a string counts. -/
theorem Table.redundant_string {t : Table} {field : String} {c : Column}
    (declared : t.column? field = some c) (primitive : c.primitive = true)
    (numeric : c.type.isNumeric = true) (text : String) :
    t.redundant field (.string text) = (Value.string text).isZero := by
  simp only [redundant, declared, Value.isNull, primitive, numeric, Bool.false_or, Bool.true_and]

section

variable {s : Schema} {primary : String} {aliases : List (String × String)} {limit : Nat}

/-- **Such a condition is dropped exactly when its string counts as zero.** -/
theorem OnNumbers.filterNode_eq_dropped_iff {n : Node} {text : String} (depth : Nat)
    (on : OnNumbers s (s.context primary aliases limit) n text) :
    filterNode (s.context primary aliases limit) depth n = .dropped ↔
      (Value.string text).isZero = true := by
  obtain ⟨p, t, c, key, table, declared, primitive, numeric⟩ := on.column
  have resolved : (s.context primary aliases limit).resolve p = .ok t.view :=
    resolve_context_eq_ok_iff.mpr ⟨t, table, rfl⟩
  have only : ∀ {q view}, n.key = .path q → (s.context primary aliases limit).resolve q = .ok view →
      p = q ∧ view = t.view := by
    intro q view key' resolved'
    cases key.symm.trans key'
    exact ⟨rfl, Except.ok.inj (resolved'.symm.trans resolved)⟩
  have zero := Table.redundant_string declared primitive numeric text
  rw [Criteria.filterNode_eq_dropped_iff]
  constructor
  · intro idle
    rcases on.string with ⟨op, compare, value⟩ | ⟨negated, member, items⟩
    · cases idle with
      | redundant _ key' resolved' redundant =>
          obtain ⟨rfl, rfl⟩ := only key' resolved'
          rw [value] at redundant
          exact zero.symm.trans redundant
      | unfit _ key' resolved' declared' null =>
          -- A column of numbers is not temporal, and the string stays as it is.
          obtain ⟨rfl, rfl⟩ := only key' resolved'
          obtain ⟨c', found, rfl⟩ := Option.map_eq_some_iff.mp declared'
          obtain rfl : c = c' := Option.some.inj (declared.symm.trans found)
          have kept : (s.context primary aliases limit).coercion c.type n.value = n.value :=
            Coercion.epochMillis_other (ColumnType.isTemporal_of_isNumeric numeric) n.value
          rw [kept, value] at null
          cases null
      | single member _ => cases compare.symm.trans member
      | group group => cases compare.symm.trans group
    · cases idle with
      | redundant compare => cases member.symm.trans compare
      | unfit compare => cases member.symm.trans compare
      | single _ items' key' resolved' redundant =>
          obtain ⟨rfl, rfl⟩ := only key' resolved'
          cases items.symm.trans items'
          exact zero.symm.trans redundant
      | group group => cases member.symm.trans group
  · intro isZero
    rcases on.string with ⟨op, compare, value⟩ | ⟨negated, member, items⟩
    · refine .redundant compare key resolved ?_
      rw [value]
      exact zero.trans isZero
    · exact .single member items key resolved (zero.trans isZero)

end

/-! ## What counts as zero -/

/-- **A numeral counts as zero up to half of the least positive double.**  So it counts as zero
exactly when it writes zero, unless its number is so small without being zero.  A string that is
no numeral never does; and of the comparisons of a primitive column of numbers with the string, and
the memberships of it alone, filtering drops those whose string counts as zero. -/
theorem zero_strings_are_dropped (text : String) :
    (∀ n : WrittenNumber, Text.trim text.toList = n.chars →
      ((Value.string text).isZero = true ↔ |n.value| ≤ leastDouble / 2) ∧
      (((Value.string text).isZero = true ↔ n.value = 0) ↔
        (n.value ≠ 0 → leastDouble / 2 < |n.value|))) ∧
    ((∀ n : WrittenNumber, Text.trim text.toList ≠ n.chars) → (Value.string text).isZero = false) ∧
    ∀ (s : Schema) (primary : String) (aliases : List (String × String)) (limit depth : Nat)
      (n : Node), OnNumbers s (s.context primary aliases limit) n text →
      (filterNode (s.context primary aliases limit) depth n = .dropped ↔
        ∃ w : WrittenNumber, Text.trim text.toList = w.chars ∧ |w.value| ≤ leastDouble / 2) := by
  have counts : ∀ n : WrittenNumber, Text.trim text.toList = n.chars →
      ((Value.string text).isZero = true ↔ |n.value| ≤ leastDouble / 2) := by
    intro n written
    rw [Value.isZero, written, Decimal.denotesZero_chars]
  refine ⟨fun n written => ⟨counts n written, ?_⟩, fun other => ?_,
    fun s primary aliases limit depth n on => ?_⟩
  · rw [counts n written, ← not_le]
    have zero : n.value = 0 → |n.value| ≤ leastDouble / 2 := by
      intro none_
      rw [none_, abs_zero]
      exact Decimal.leastDouble_half_pos.le
    constructor
    · exact fun same other small => other (same.mp small)
    · exact fun wide => ⟨fun small => by_contra fun other => wide other small, zero⟩
  · refine Bool.eq_false_iff.mpr fun zero => ?_
    obtain ⟨n, written⟩ := Decimal.exists_of_denotesZero zero
    exact other n written
  · rw [on.filterNode_eq_dropped_iff depth]
    constructor
    · intro zero
      obtain ⟨w, written⟩ := Decimal.exists_of_denotesZero zero
      exact ⟨w, written, (counts w written).mp zero⟩
    · rintro ⟨w, written, small⟩
      exact (counts w written).mpr small

/-- The numeral `-2.4E-0324`. -/
def belowTheMiddle : WrittenNumber :=
  ⟨.minus, ⟨['2'], List.all_eq_true.mp rfl⟩, some ⟨['4'], List.all_eq_true.mp rfl⟩,
    some ⟨'E', .minus, ⟨['0', '3', '2', '4'], List.all_eq_true.mp rfl⟩, by decide, by decide⟩,
    by decide⟩

theorem zero_strings_are_dropped_users :
    |belowTheMiddle.value| ≤ leastDouble / 2 ∧ (Value.string "0x0").isZero = false ∧
      filterNode (userSchema.context "users" [] 2) 0
        (.ofPath ⟨none, "id"⟩ (.compare .eq) (.string " -2.4E-0324 ")) = .dropped := by
  have written : Text.trim " -2.4E-0324 ".toList = belowTheMiddle.chars := by decide +kernel
  have zero : (Value.string " -2.4E-0324 ").isZero = true := by decide +kernel
  obtain ⟨counts, -, dropped⟩ := zero_strings_are_dropped " -2.4E-0324 "
  have small := (counts _ written).1.mp zero
  refine ⟨small, (zero_strings_are_dropped "0x0").2.1 fun n same => ?_,
    (dropped userSchema "users" [] 2 0 _ ?_).mpr ⟨_, written, small⟩⟩
  · have read := Decimal.read?_chars n
    rw [← same] at read
    cases read
  · exact ⟨⟨_, _, _, rfl, rfl, rfl, rfl, rfl⟩, .inl ⟨_, rfl, rfl⟩⟩

/-- The numeral `1e-400`. -/
def tiny : WrittenNumber :=
  ⟨.none, ⟨['1'], List.all_eq_true.mp rfl⟩, none,
    some ⟨'e', .minus, ⟨['4', '0', '0'], List.all_eq_true.mp rfl⟩, by decide, by decide⟩,
    by decide⟩

/-- A number that is not zero counts as zero, and the comparison with it is dropped. -/
theorem tiny_dropped :
    Text.trim "1e-400".toList = tiny.chars ∧ tiny.value ≠ 0 ∧ (Value.string "1e-400").isZero = true ∧
      filter (userSchema.context "users" [] 2)
        [.ofPath ⟨none, "id"⟩ (.compare .eq) (.string "1e-400")] = ⟨[], none⟩ := by
  have value : tiny.value = (1 + 0 / 10 ^ 0) * 10 ^ (-400 : Int) := rfl
  have zero : (Value.string "1e-400").isZero = true := by decide +kernel
  have on : OnNumbers userSchema (userSchema.context "users" [] 2)
      (.ofPath ⟨none, "id"⟩ (.compare .eq) (.string "1e-400")) "1e-400" :=
    ⟨⟨_, _, _, rfl, rfl, rfl, rfl, rfl⟩, .inl ⟨_, rfl, rfl⟩⟩
  refine ⟨by decide +kernel, ?_, zero, filterAll_eq_nil_iff.mpr (List.forall_mem_singleton.mpr ?_)⟩
  · rw [value]
    positivity
  · exact (on.filterNode_eq_dropped_iff 0).mpr zero

end Criteria
