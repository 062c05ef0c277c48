/-
# Criteria.Proofs.InlinedDates -- instants written into a list

An instant that is an item of a membership is not bound but written out, to the second:
`Instant.sqlChars` leaves the fraction out.  Read as a date and time of day (`readDateTime?`)
the literal is the start of the second that it shows (`Instant.wholeSecond`), whatever its
year and also in a leap second; with the fraction behind it, it would be the instant that is
shown (`readDateTime?_fraction`).

So the literals of a list denote its instants exactly when no fraction is lost and a clock can
show each of them, and two lists are written alike exactly when they show the same seconds
(`inlined_dates_to_the_second`).
-/
import Criteria.Proofs.Defusing
import Criteria.Proofs.Timestamps

namespace Criteria

set_option autoImplicit false

namespace Calendar

/-! ## Reading -/

/-- Read a whole text as a date and a time of day in UTC, with a fraction of the second if
there is one.  The year may have a sign and more digits, and the second may be 60. -/
def readDateTime? (text : List Char) : Option Instant := do
  let (year, rest) ← readYear? text
  let rest ← readChar? '-' rest
  let (month, rest) ← readDigits? 2 rest
  let rest ← readChar? '-' rest
  let (day, rest) ← readDigits? 2 rest
  let rest ← readChar? ' ' rest
  let (hour, rest) ← readDigits? 2 rest
  let rest ← readChar? ':' rest
  let (minute, rest) ← readDigits? 2 rest
  let rest ← readChar? ':' rest
  let (second, rest) ← readDigits? 2 rest
  let (nano, rest) ← readFraction? rest
  let date ← Date.of? year month day
  if rest.isEmpty ∧ hour ≤ 23 ∧ minute ≤ 59 ∧ second ≤ 60 then
    Instant.ofClock? date hour minute second nano 0
  else none

namespace Instant

/-- The start of the second that an instant is in; a leap second starts at its sixtieth. -/
def wholeSecond (i : Instant) : Instant where
  second := i.second
  nano := i.nano / 1000000000 * 1000000000
  inRange := i.inRange
  inSecond := by
    have inSecond := i.inSecond
    omega

theorem OnClock.wholeSecond {i : Instant} (onClock : i.OnClock) : i.wholeSecond.OnClock := by
  simp only [OnClock, Instant.wholeSecond] at onClock ⊢
  omega

theorem fraction_wholeSecond (i : Instant) : i.wholeSecond.fraction = 0 :=
  Nat.mul_mod_left ..

theorem clock_wholeSecond (i : Instant) : i.wholeSecond.clock = i.clock := by
  simp [clock, wholeSecond]

/-- The fraction is not written. -/
theorem sqlChars_wholeSecond (i : Instant) : i.wholeSecond.sqlChars = i.sqlChars := by
  rw [sqlChars, clockChars, clock_wholeSecond]
  rfl

theorem sqlChars_shown (i : Instant) : i.shown.sqlChars = i.sqlChars := by
  rw [sqlChars, sqlChars, clockChars, clockChars, date_shown, clock_shown]

/-- Only a fraction is cut off. -/
theorem wholeSecond_eq_self_iff {i : Instant} : i.wholeSecond = i ↔ i.fraction = 0 := by
  constructor
  · intro same
    rw [← same, fraction_wholeSecond]
  · intro whole
    obtain ⟨second, nano, inRange, inSecond⟩ := i
    simp only [fraction] at whole
    simp only [wholeSecond, Instant.mk.injEq, true_and]
    omega

theorem wholeSecond_shown_eq_self_iff {i : Instant} :
    i.shown.wholeSecond = i ↔ i.fraction = 0 ∧ i.OnClock := by
  constructor
  · intro same
    have onClock : i.OnClock := by
      rw [← same]
      exact i.onClock_shown.wholeSecond
    rw [shown_of_onClock onClock] at same
    exact ⟨wholeSecond_eq_self_iff.mp same, onClock⟩
  · rintro ⟨whole, onClock⟩
    rw [shown_of_onClock onClock]
    exact wholeSecond_eq_self_iff.mpr whole

/-- Date and time of day of an instant are read off its text, and then the rest. -/
theorem readDateTime?_sqlChars_append (i : Instant) (tail : List Char) :
    readDateTime? (i.sqlChars ++ tail) = (do
      let (nano, rest) ← readFraction? tail
      if rest.isEmpty then ofClock? i.date i.clock.1 i.clock.2.1 i.clock.2.2 nano 0 else none) := by
  have read : ∀ {n}, n < 100 → ∀ rest, readDigits? 2 (padded 2 n ++ rest) = some (n, rest) :=
    fun fits => readDigits?_padded (by decide) fits
  have inClock := i.clock_le
  have small : i.clock.1 < 100 ∧ i.clock.2.1 < 100 ∧ i.clock.2.2 < 100 := by omega
  have inDate := i.date_lt
  have exists_ : Date.of? i.date.year i.date.month i.date.day = some i.date :=
    Date.of?_ofDayNumber _
  simp only [sqlChars, Date.chars, clockChars, List.append_assoc, List.cons_append]
  unfold readDateTime?
  refine bind_eq_of_some (readYear?_yearChars i.date.year _) ?_
  refine bind_eq_of_some (readChar?_self '-' _) ?_
  refine bind_eq_of_some (read inDate.1 _) ?_
  refine bind_eq_of_some (readChar?_self '-' _) ?_
  refine bind_eq_of_some (read inDate.2 _) ?_
  refine bind_eq_of_some (readChar?_self ' ' _) ?_
  refine bind_eq_of_some (read small.1 _) ?_
  refine bind_eq_of_some (readChar?_self ':' _) ?_
  refine bind_eq_of_some (read small.2.1 _) ?_
  refine bind_eq_of_some (readChar?_self ':' _) ?_
  refine bind_eq_of_some (read small.2.2 _) ?_
  simp only [exists_, inClock, and_true, Option.bind_eq_bind, Option.bind_some]

/-- **The text of an instant is read as the start of the second that it shows.** -/
theorem readDateTime?_sqlChars (i : Instant) :
    readDateTime? i.sqlChars = some i.shown.wholeSecond := by
  have whole := ofClock?_of_onClock i.onClock_shown.wholeSecond
  rw [clock_wholeSecond, fraction_wholeSecond] at whole
  have read := readDateTime?_sqlChars_append i.shown []
  rw [List.append_nil, sqlChars_shown] at read
  exact read.trans whole

/-- With its fraction it would be read as the instant that is shown. -/
theorem readDateTime?_fraction (i : Instant) :
    readDateTime? (i.sqlChars ++ i.fractionChars) = some i.shown := by
  have fraction := @readFraction?_fractionChars i [] (by simp)
  rw [List.append_nil] at fraction
  rw [readDateTime?_sqlChars_append, fraction]
  exact ofClock?_clock i

theorem sqlChars_eq_iff {i j : Instant} :
    i.sqlChars = j.sqlChars ↔ i.shown.wholeSecond = j.shown.wholeSecond := by
  constructor
  · intro same
    have read := readDateTime?_sqlChars i
    rw [same, readDateTime?_sqlChars] at read
    exact (Option.some.inj read).symm
  · intro same
    rw [← sqlChars_shown i, ← sqlChars_wholeSecond i.shown, same, sqlChars_wholeSecond,
      sqlChars_shown]

/-! ## Writing -/

/-- Digits and marks make up the text of an instant. -/
theorem mem_sqlChars (i : Instant) :
    ∀ c ∈ i.sqlChars, c.isDigit = true ∨ c ∈ ['-', '+', ':', ' '] := by
  have digits : ∀ width n, ∀ c ∈ padded width n, c.isDigit = true ∨ c ∈ ['-', '+', ':', ' '] :=
    fun width n c member => .inl (isDigit_of_mem_padded c member)
  have year : ∀ c ∈ yearChars i.date.year, c.isDigit = true ∨ c ∈ ['-', '+', ':', ' '] := by
    rcases yearChars_cases i.date.year with ⟨-, text⟩ | ⟨-, text⟩ | ⟨-, -, text⟩ <;> rw [text]
    · exact List.forall_mem_cons.mpr ⟨by simp, digits _ _⟩
    · exact List.forall_mem_cons.mpr ⟨by simp, digits _ _⟩
    · exact digits _ _
  simp only [sqlChars, Date.chars, clockChars, List.forall_mem_append, List.forall_mem_cons,
    List.append_assoc, List.cons_append]
  exact ⟨year, by simp, digits _ _, by simp, digits _ _, by simp, digits _ _, by simp, digits _ _,
    by simp, digits _ _⟩

theorem harmless_sqlChars (i : Instant) : Harmless i.sqlChars := by
  refine harmless_of_not_mem (fun letter => ?_) fun semicolon => ?_
  · rcases i.mem_sqlChars 'd' letter with digit | mark
    · cases digit
    · simp at mark
  · rcases i.mem_sqlChars ';' semicolon with digit | mark
    · cases digit
    · simp at mark

/-- It is not blank, so no instant is left out of a list. -/
theorem trim_sqlChars_ne_nil (i : Instant) : Text.trim i.sqlChars ≠ [] := by
  have dash : '-' ∈ i.sqlChars := by simp [sqlChars, Date.chars]
  have kept : 0 < (Text.trim i.sqlChars).count '-' := by
    rw [Text.count_trim rfl]
    exact List.count_pos_iff.mpr dash
  exact List.ne_nil_of_mem (List.count_pos_iff.mp kept)

end Instant

end Calendar

open Calendar (Instant readDateTime?)

/-- The literals of instants, none of which is left out or refused. -/
theorem literals_dates (key : String) (dates : List Instant) :
    literals key (dates.map .date) = .ok (dates.map fun i => .quoted i.sqlChars) := by
  have accepted : ∀ v ∈ dates.map Value.date, LiteralKind.text.accepts v = true := by
    rintro v member
    obtain ⟨i, -, rfl⟩ := List.mem_map.mp member
    rfl
  have written : (dates.map Value.date).filterMap LiteralKind.text.literal? =
      dates.map fun i => .quoted i.sqlChars := by
    rw [List.filterMap_map, ← List.filterMap_eq_map]
    refine List.filterMap_congr fun i _ => ?_
    have shown : (Text.trim (Value.date i).chars).isEmpty = false :=
      List.isEmpty_eq_false_iff.mpr i.trim_sqlChars_ne_nil
    simp only [Function.comp_apply, LiteralKind.literal?, shown, Bool.false_eq_true, if_false]
    rfl
  cases dates with
  | nil => rfl
  | cons i rest => exact (LiteralKind.literals_of_accepts key accepted).trans (congrArg _ written)

/-- They are read as their texts, as nothing in these is defused. -/
theorem readList_dates {key : String} {dates : List Instant} {written : String}
    (rendered : renderList key (dates.map .date) = .ok written) :
    readList written.toList = some (dates.map fun i => .quoted i.sqlChars, []) := by
  have items : (dates.map fun i => Literal.quoted i.sqlChars).map Literal.item =
      dates.map fun i => .quoted i.sqlChars := by
    rw [List.map_map]
    refine List.map_congr_left fun i _ => ?_
    exact congrArg Item.quoted (defuseChars_eq_self i.harmless_sqlChars)
  have legible : ∀ item ∈ dates.map fun i => Item.quoted i.sqlChars, item.Legible := by
    intro item member
    obtain ⟨i, -, rfl⟩ := List.mem_map.mp member
    trivial
  rw [renderList, literals_dates] at rendered
  cases rendered
  have read := readList_listChars _ legible []
  rw [List.append_nil, ← items, listChars_map_item, items] at read
  rw [String.toList_ofList, read]

theorem map_eq_map_iff_forall₂ {α β : Type} {f : α → β} {l m : List α} :
    l.map f = m.map f ↔ List.Forall₂ (fun a b => f a = f b) l m := by
  rw [← List.forall₂_eq_eq_eq, List.forall₂_map_left_iff, List.forall₂_map_right_iff]

/-- Lists of instants are written alike when they show the same seconds, and only then. -/
theorem renderList_dates_eq_iff {key : String} {dates others : List Instant} {written : String}
    (rendered : renderList key (dates.map .date) = .ok written) :
    renderList key (others.map .date) = .ok written ↔
      others.map (·.shown.wholeSecond) = dates.map (·.shown.wholeSecond) := by
  have texts : others.map (·.shown.wholeSecond) = dates.map (·.shown.wholeSecond) ↔
      others.map (fun i => Item.quoted i.sqlChars) = dates.map fun i => Item.quoted i.sqlChars := by
    simp only [map_eq_map_iff_forall₂, Item.quoted.injEq, Instant.sqlChars_eq_iff]
  rw [texts]
  constructor
  · intro alike
    have read := (readList_dates alike).symm.trans (readList_dates rendered)
    exact (Prod.mk.inj (Option.some.inj read)).1
  · intro same
    have chars : others.map (fun i => Literal.quoted i.sqlChars) =
        dates.map fun i => Literal.quoted i.sqlChars := by
      simpa only [map_eq_map_iff_forall₂, Item.quoted.injEq, Literal.quoted.injEq] using same
    rw [← rendered, renderList, renderList, literals_dates, literals_dates, chars]

/-- **Instants in a list are written to the second.**  A list of instants is always written, with
one quoted literal for each.  Read as a date and time of day in UTC a literal is the start of
the second that it shows, in any year and also in a leap second; with the fraction behind it, it
would be the instant that is shown, which is the instant of the list unless no clock can show
that.  So the literals denote the values that comparisons would bind exactly when no instant has
a fraction and a clock can show each, and another list is written alike exactly when its instants
show the same seconds. -/
theorem inlined_dates_to_the_second (key : String) (dates : List Instant) :
    ∃ written texts, renderList key (dates.map .date) = .ok written ∧
      readList written.toList = some (texts.map Item.quoted, []) ∧
      List.Forall₂ (fun i text => readDateTime? text = some i.shown.wholeSecond ∧
        readDateTime? (text ++ i.fractionChars) = some i.shown) dates texts ∧
      (List.Forall₂ (fun i text => (readDateTime? text).map Value.date =
        some (Value.date i).toBind) dates texts ↔ ∀ i ∈ dates, i.fraction = 0 ∧ i.OnClock) ∧
      ∀ others : List Instant, renderList key (others.map .date) = .ok written ↔
        others.map (·.shown.wholeSecond) = dates.map (·.shown.wholeSecond) := by
  obtain ⟨written, rendered⟩ : ∃ written, renderList key (dates.map .date) = .ok written :=
    ⟨_, by rw [renderList, literals_dates]; rfl⟩
  refine ⟨written, dates.map Instant.sqlChars, rendered, ?_, ?_, ?_,
    fun others => renderList_dates_eq_iff rendered⟩
  · rw [readList_dates rendered, List.map_map]
    rfl
  · rw [List.forall₂_map_right_iff, List.forall₂_same]
    exact fun i _ => ⟨i.readDateTime?_sqlChars, i.readDateTime?_fraction⟩
  · rw [List.forall₂_map_right_iff, List.forall₂_same]
    simp only [Instant.readDateTime?_sqlChars, Option.map_some, Option.some.injEq, Value.toBind,
      Value.date.injEq, Instant.wholeSecond_shown_eq_self_iff]

/-- Nanoseconds that run on in the second 44 are written as second 45. -/
example : renderList "born" [.date ⟨1709208044, 1333333333, by decide, by decide⟩] =
    .ok "( '2024-02-29 12:00:45' )" :=
  rfl

/-- Noon of a leap day, and an eighth of a second. -/
def earlyInSecond : Instant :=
  ⟨1709208000, 125000000, by decide, by decide⟩

/-- Three quarters of a second later. -/
def lateInSecond : Instant :=
  ⟨1709208000, 875000000, by decide, by decide⟩

/-- **Two instants, one literal.**  A comparison binds each of them as it is; in a list both are
noon. -/
theorem fraction_lost :
    earlyInSecond ≠ lateInSecond ∧
      (Value.date earlyInSecond).toBind = .date earlyInSecond ∧
      (Value.date lateInSecond).toBind = .date lateInSecond ∧
      renderList "born" [.date earlyInSecond, .date lateInSecond] =
        .ok "( '2024-02-29 12:00:00', '2024-02-29 12:00:00' )" ∧
      readDateTime? "2024-02-29 12:00:00".toList ≠ some earlyInSecond ∧
      readDateTime? "2024-02-29 12:00:00".toList ≠ some lateInSecond := by
  refine ⟨by decide, rfl, rfl, rfl, by decide, by decide⟩

end Criteria
