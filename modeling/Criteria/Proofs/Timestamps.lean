/-
# Criteria.Proofs.Timestamps -- instants read off their own text

A number in a fixed width is read back with whatever follows it (`readDigits?_padded`), the
fraction of a second by its three, six or nine digits (`readFraction?_fractionChars`), and
date and time of day are put together again (`Instant.ofClock?_clock`).

What the texts of an instant show is `Instant.shown`.  It is the instant itself, leap seconds
among them, unless nanoseconds run on in a second that is not the last of its minute
(`Instant.shown_eq_self_iff`): the texts then show the next second.  A timestamp reads as the
instant that it shows as long as its year has four digits (`readInstant?_timestamp`).  The
sign before any other year stops the reader of timestamps, and the time of day stops the
reader of dates.
-/
import Criteria.Proofs.DayNumbers
import Criteria.Proofs.NodeDocuments

namespace Criteria.Calendar

set_option autoImplicit false

open Decimal (digitsValue)

/-! ## Numbers of a fixed width -/

theorem isDigit_of_mem_padded {width n : Nat} : ∀ c ∈ padded width n, c.isDigit = true := by
  intro c member
  rcases List.mem_append.mp member with zero | digit
  · rw [(List.mem_replicate.mp zero).2]
    rfl
  · exact Nat.isDigit_of_mem_toDigits (by decide) (by decide) digit

theorem length_padded {width n : Nat} (some_ : 0 < width) (fits : n < 10 ^ width) :
    (padded width n).length = width := by
  have digits : (Nat.toDigits 10 n).length ≤ width :=
    (Nat.length_toDigits_le_iff (by decide) some_).mpr fits
  rw [padded, List.length_append, List.length_replicate]
  omega

/-- Zeros in front do not count. -/
theorem digitsValue_padded (width n : Nat) : digitsValue (padded width n) = n := by
  have zeros : ∀ count digits, digitsValue (List.replicate count '0' ++ digits) =
      digitsValue digits := by
    intro count digits
    induction count with
    | zero => rfl
    | succ count ih => exact ih
  rw [padded, zeros, Json.digitsValue_toDigits]

/-- **A number of fixed width is read with what follows it.** -/
theorem readDigits?_padded {width n : Nat} (some_ : 0 < width) (fits : n < 10 ^ width)
    (rest : List Char) : readDigits? width (padded width n ++ rest) = some (n, rest) := by
  have length := length_padded some_ fits
  have digits : (padded width n).all Char.isDigit = true :=
    List.all_eq_true.mpr isDigit_of_mem_padded
  have front : (padded width n ++ rest).take width = padded width n :=
    List.take_left' length
  have back : (padded width n ++ rest).drop width = rest := List.drop_left' length
  rw [readDigits?, front, back, digitsValue_padded]
  exact if_pos ⟨length, digits⟩

theorem exists_padded_eq_cons (width n : Nat) :
    ∃ c digits, c.isDigit = true ∧ padded width n = c :: digits := by
  have some_ : padded width n ≠ [] := List.append_ne_nil_of_right_ne_nil _ Nat.toDigits_ne_nil
  obtain ⟨c, digits, front⟩ := List.exists_cons_of_ne_nil some_
  exact ⟨c, digits, isDigit_of_mem_padded c (by rw [front]; exact List.mem_cons_self), front⟩

theorem ne_nil_padded (width n : Nat) : padded width n ≠ [] := by
  obtain ⟨c, digits, -, front⟩ := exists_padded_eq_cons width n
  rw [front]
  exact List.cons_ne_nil c digits

theorem not_isBlank_of_isDigit {c : Char} (digit : c.isDigit = true) : Text.isBlank c = false :=
  Path.not_isBlank_of_isNameChar (by simp [Path.isNameChar, Char.isAlphanum, digit])

/-- There is no blank to skip before a digit. -/
theorem trimStart_padded (width n : Nat) (rest : List Char) :
    Text.trimStart (padded width n ++ rest) = padded width n ++ rest := by
  obtain ⟨c, digits, digit, front⟩ := exists_padded_eq_cons width n
  rw [front, List.cons_append, Text.trimStart]
  exact List.dropWhile_cons_of_neg (by simp [not_isBlank_of_isDigit digit])

/-- Readers that take up to so many digits find all of them too. -/
theorem readShort?_padded {width n : Nat} (some_ : 0 < width) (fits : n < 10 ^ width)
    (rest : List Char) : readShort? width (padded width n ++ rest) = some (n, rest) := by
  have length := length_padded some_ fits
  have front : ((padded width n ++ rest).take width).takeWhile Char.isDigit = padded width n := by
    rw [List.take_left' length, List.takeWhile_eq_self_iff]
    exact isDigit_of_mem_padded
  rw [readShort?, trimStart_padded, front, digitsValue_padded, List.drop_left]
  simp [ne_nil_padded]

/-! ## Years -/

/-- Digits behind a sign are read up to what is no digit. -/
theorem signed_padded (width n : Nat) (rest : List Char) :
    readYear?.signed (padded width n ++ '-' :: rest) = some ((n : Int), '-' :: rest) := by
  unfold readYear?.signed
  rw [List.takeWhile_append_of_pos isDigit_of_mem_padded,
    List.dropWhile_append_of_pos isDigit_of_mem_padded]
  simp [ne_nil_padded, digitsValue_padded]

theorem readYear?_minus (rest : List Char) :
    readYear? ('-' :: rest) = (readYear?.signed rest).map fun (n, rest) => (-n, rest) :=
  rfl

theorem readYear?_plus (rest : List Char) : readYear? ('+' :: rest) = readYear?.signed rest :=
  rfl

theorem readYear?_padded (width n : Nat) (rest : List Char) :
    readYear? (padded width n ++ rest) =
      (readShort? 4 (padded width n ++ rest)).map fun (n, rest) => ((n : Int), rest) := by
  rw [readYear?, trimStart_padded]
  obtain ⟨c, digits, digit, front⟩ := exists_padded_eq_cons width n
  rw [front, List.cons_append]
  split
  · rename_i minus
    cases minus
    cases digit
  · rename_i plus
    cases plus
    cases digit
  · rfl

/-- A year is written in digits, behind its sign when they are not just four. -/
theorem yearChars_cases (year : Int) :
    (year < 0 ∧ yearChars year = '-' :: padded 4 year.natAbs) ∨
      (9999 < year ∧ yearChars year = '+' :: padded 4 year.natAbs) ∨
        0 ≤ year ∧ year ≤ 9999 ∧ yearChars year = padded 4 year.natAbs := by
  by_cases negative : year < 0
  · exact .inl ⟨negative, by simp [yearChars, negative]⟩
  by_cases large : 9999 < year
  · exact .inr (.inl ⟨large, by simp [yearChars, negative, large]⟩)
  · exact .inr (.inr ⟨Int.not_lt.mp negative, Int.not_lt.mp large,
      by simp [yearChars, negative, large]⟩)

/-- **Any year is read off its text**, be it four digits or a sign and more. -/
theorem readYear?_yearChars (year : Int) (rest : List Char) :
    readYear? (yearChars year ++ '-' :: rest) = some (year, '-' :: rest) := by
  rcases yearChars_cases year with ⟨negative, text⟩ | ⟨large, text⟩ | ⟨positive, small, text⟩
  · have size : -(year.natAbs : Int) = year := by omega
    rw [text, List.cons_append, readYear?_minus, signed_padded, Option.map_some]
    simp only [size]
  · have size : (year.natAbs : Int) = year := by omega
    rw [text, List.cons_append, readYear?_plus, signed_padded, size]
  · have size : (year.natAbs : Int) = year := by omega
    have fits : year.natAbs < 10 ^ 4 := by omega
    rw [text, readYear?_padded, readShort?_padded (by decide) fits, Option.map_some]
    simp only [size]

/-! ## Dates -/

/-- A date is read off its text, up to what follows. -/
theorem readPlainDate?_chars (d : Date) (month : d.month < 100) (day : d.day < 100)
    (rest : List Char) :
    readPlainDate? (d.chars ++ rest) =
      (Date.of? d.year d.month d.day).bind fun date =>
        if rest.isEmpty then Instant.ofClock? date 0 0 0 0 0 else none := by
  have monthRead : ∀ rest, readShort? 2 (padded 2 d.month ++ rest) = some (d.month, rest) :=
    readShort?_padded (by decide) month
  have dayRead : ∀ rest, readShort? 2 (padded 2 d.day ++ rest) = some (d.day, rest) :=
    readShort?_padded (by decide) day
  rw [Date.chars, List.append_assoc, List.cons_append, List.append_assoc, List.cons_append,
    readPlainDate?, readYear?_yearChars]
  simp [readChar?, monthRead, dayRead]

theorem readChar?_self (c : Char) (rest : List Char) : readChar? c (c :: rest) = some rest :=
  if_pos rfl

theorem readMark_T (rest : List Char) :
    (readChar? 'T' ('T' :: rest) <|> readChar? 't' ('T' :: rest) <|> readChar? ' ' ('T' :: rest)) =
      some rest :=
  rfl

/-- What is read first hands over to what is read next. -/
theorem bind_eq_of_some {α β : Type} {first : Option α} {a : α} {next : α → Option β}
    {result : Option β} (read : first = some a) (later : next a = result) :
    (first >>= next) = result := by
  rw [read]
  exact later

/-- A timestamp is read off the numbers that it is written with, and the rest of its text. -/
theorem readTimestamp?_numbers {year month day hour minute second : Nat} (fourDigits : year < 10000)
    (inDate : month < 100 ∧ day < 100) (inClock : hour < 100 ∧ minute < 100 ∧ second < 100)
    (tail : List Char) :
    readTimestamp? (padded 4 year ++ '-' :: padded 2 month ++ '-' :: padded 2 day ++
        'T' :: (padded 2 hour ++ ':' :: padded 2 minute ++ ':' :: padded 2 second) ++ tail) =
      (do
        let (nano, rest) ← readFraction? tail
        let offset ← readOffset? rest
        let date ← Date.of? year month day
        if hour ≤ 23 ∧ minute ≤ 59 ∧ second ≤ 60 then
          Instant.ofClock? date hour minute second nano offset
        else none) := by
  have yearRead : ∀ rest, readDigits? 4 (padded 4 year ++ rest) = some (year, rest) :=
    readDigits?_padded (by decide) fourDigits
  have read : ∀ {n}, n < 100 → ∀ rest, readDigits? 2 (padded 2 n ++ rest) = some (n, rest) :=
    fun fits => readDigits?_padded (by decide) fits
  simp only [List.append_assoc, List.cons_append]
  unfold readTimestamp?
  refine bind_eq_of_some (yearRead _) ?_
  refine bind_eq_of_some (readChar?_self '-' _) ?_
  refine bind_eq_of_some (read inDate.1 _) ?_
  refine bind_eq_of_some (readChar?_self '-' _) ?_
  refine bind_eq_of_some (read inDate.2 _) ?_
  refine bind_eq_of_some (readMark_T _) ?_
  refine bind_eq_of_some (read inClock.1 _) ?_
  refine bind_eq_of_some (readChar?_self ':' _) ?_
  refine bind_eq_of_some (read inClock.2.1 _) ?_
  refine bind_eq_of_some (readChar?_self ':' _) ?_
  refine bind_eq_of_some (read inClock.2.2 _) ?_
  rfl

/-- What does not start with a digit is no timestamp. -/
theorem readTimestamp?_of_sign {c : Char} (sign : c.isDigit = false) (rest : List Char) :
    readTimestamp? (c :: rest) = none := by
  have unread : readDigits? 4 (c :: rest) = none := by
    rw [readDigits?, List.take_succ_cons, List.all_cons, sign]
    exact if_neg fun both => Bool.false_ne_true both.2
  rw [readTimestamp?, unread]
  rfl

/-! ## Fractions of a second -/

theorem readFraction?_digits {digits rest : List Char} (some_ : digits ≠ [])
    (all : ∀ c ∈ digits, c.isDigit = true) (stop : ∀ c ∈ rest.head?, c.isDigit = false) :
    readFraction? ('.' :: digits ++ rest) = some (nanoseconds digits, rest) := by
  rw [List.cons_append, readFraction?, Decimal.takeWhile_isDigit_append all stop,
    Decimal.dropWhile_isDigit_append all stop]
  simp [some_]

/-- Without a point there is no fraction. -/
theorem readFraction?_none {rest : List Char} (stop : ∀ c ∈ rest.head?, c ≠ '.') :
    readFraction? rest = some (0, rest) := by
  unfold readFraction?
  split
  · exact absurd rfl (stop '.' rfl)
  · rfl

theorem nanoseconds_padded {width n : Nat} (some_ : 0 < width) (most : width ≤ 9)
    (fits : n < 10 ^ width) : nanoseconds (padded width n) = n * 10 ^ (9 - width) := by
  have length := length_padded some_ fits
  rw [nanoseconds, List.take_of_length_le (by omega), digitsValue_padded, length]
  rfl

namespace Instant

/-- **The fraction of a second is read back**, whatever number of digits it took. -/
theorem readFraction?_fractionChars (i : Instant) {rest : List Char}
    (stop : ∀ c ∈ rest.head?, c.isDigit = false ∧ c ≠ '.') :
    readFraction? (i.fractionChars ++ rest) = some (i.fraction, rest) := by
  have below : i.fraction < 1000000000 := Nat.mod_lt _ (by decide)
  have digits : ∀ width n, 0 < width → width ≤ 9 → n < 10 ^ width →
      n * 10 ^ (9 - width) = i.fraction →
      readFraction? ('.' :: padded width n ++ rest) = some (i.fraction, rest) := by
    intro width n some_ most fits value
    rw [readFraction?_digits (ne_nil_padded width n) isDigit_of_mem_padded
      fun c first => (stop c first).1, nanoseconds_padded some_ most fits, value]
  unfold fractionChars
  split
  · rename_i zero
    rw [zero, List.nil_append]
    exact readFraction?_none fun c first => (stop c first).2
  split
  · exact digits 3 _ (by decide) (by decide) (by omega) (by omega)
  split
  · exact digits 6 _ (by decide) (by decide) (by omega) (by omega)
  · exact digits 9 _ (by decide) (by decide) below (by omega)

/-! ## Dates and times of day -/

theorem clock_le (i : Instant) : i.clock.1 ≤ 23 ∧ i.clock.2.1 ≤ 59 ∧ i.clock.2.2 ≤ 60 := by
  have inSecond := i.inSecond
  simp only [clock, secondsPerDay]
  omega

/-- A clock can show the instant: nanoseconds run on in the last second of a minute only. -/
def OnClock (i : Instant) : Prop :=
  i.nano < 1000000000 ∨ i.second % 60 = 59

instance (i : Instant) : Decidable i.OnClock :=
  inferInstanceAs (Decidable (_ ∨ _))

/-- The instant that is written: nanoseconds that no clock can show are those of the next
second. -/
def shown (i : Instant) : Instant :=
  if onClock : i.OnClock then i
  else
    { second := i.second + 1
      nano := i.nano - 1000000000
      inRange := by
        -- No year ends in such a second.
        have last : latestSecond % 60 = 59 := rfl
        have inRange := i.inRange
        rw [OnClock] at onClock
        omega
      inSecond := Nat.lt_of_le_of_lt (Nat.sub_le ..) i.inSecond }

theorem shown_of_onClock {i : Instant} (onClock : i.OnClock) : i.shown = i :=
  dif_pos onClock

/-- **What no clock can show is written as another instant.** -/
theorem shown_eq_self_iff {i : Instant} : i.shown = i ↔ i.OnClock := by
  refine ⟨fun same => ?_, shown_of_onClock⟩
  by_contra other
  have second := congrArg Instant.second same
  rw [shown, dif_neg other] at second
  exact absurd second (by simp)

theorem onClock_shown (i : Instant) : i.shown.OnClock := by
  have inSecond := i.inSecond
  by_cases onClock : i.OnClock
  · rwa [shown_of_onClock onClock]
  · rw [shown, dif_neg onClock]
    exact .inl (by dsimp only; omega)

theorem date_shown (i : Instant) : i.shown.date = i.date := by
  by_cases onClock : i.OnClock
  · rw [shown_of_onClock onClock]
  · rw [shown, dif_neg onClock, date, date]
    rw [OnClock] at onClock
    simp only [secondsPerDay]
    congr 1
    omega

theorem clock_shown (i : Instant) : i.shown.clock = i.clock := by
  have inSecond := i.inSecond
  by_cases onClock : i.OnClock
  · rw [shown_of_onClock onClock]
  · rw [shown, dif_neg onClock, clock, clock]
    rw [OnClock] at onClock
    simp only [secondsPerDay, Prod.mk.injEq]
    omega

theorem fraction_shown (i : Instant) : i.shown.fraction = i.fraction := by
  have inSecond := i.inSecond
  by_cases onClock : i.OnClock
  · rw [shown_of_onClock onClock]
  · rw [shown, dif_neg onClock, fraction, fraction]
    rw [OnClock] at onClock
    dsimp only
    omega

/-- An instant that a clock can show is put together from its date and time of day. -/
theorem ofClock?_of_onClock {i : Instant} (onClock : i.OnClock) :
    ofClock? i.date i.clock.1 i.clock.2.1 i.clock.2.2 i.fraction 0 = some i := by
  have day : i.date.dayNumber = i.second / secondsPerDay := Date.dayNumber_ofDayNumber _
  have inSecond := i.inSecond
  have allowed : i.nano < 1000000000 ∨ (i.nano < 2000000000 ∧ i.second % 60 = 59) :=
    onClock.imp_right fun last => ⟨inSecond, last⟩
  have whole : of? i.second i.nano = some i := by
    rw [of?, dif_pos i.inRange, dif_pos allowed]
  rw [← whole, ofClock?, day]
  simp only [clock, fraction, secondsPerDay, beq_iff_eq]
  -- The second is written as 60 in a leap second and in no other.
  by_cases leap : i.nano < 1000000000
  · have plain : ¬ ((i.second % 86400).toNat % 60 + i.nano / 1000000000 = 60) := by omega
    rw [if_neg plain, if_neg plain]
    congr 1 <;> omega
  · have sixty : (i.second % 86400).toNat % 60 + i.nano / 1000000000 = 60 := by omega
    rw [if_pos sixty, if_pos sixty]
    congr 1 <;> omega

/-- **Date and time of day make up the instant that is shown.** -/
theorem ofClock?_clock (i : Instant) :
    ofClock? i.date i.clock.1 i.clock.2.1 i.clock.2.2 i.fraction 0 = some i.shown := by
  have put := ofClock?_of_onClock i.onClock_shown
  rwa [date_shown, clock_shown, fraction_shown] at put

/-- The year is written in four digits, without a sign. -/
def InFourDigits (i : Instant) : Prop :=
  0 ≤ i.date.year ∧ i.date.year ≤ 9999

instance (i : Instant) : Decidable i.InFourDigits :=
  inferInstanceAs (Decidable (_ ∧ _))

/-! ## Timestamps -/

/-- There is no blank in a timestamp. -/
theorem shown_timestampChars (i : Instant) : ∀ c ∈ i.timestampChars, Text.isBlank c = false := by
  have digits : ∀ width n, ∀ c ∈ padded width n, Text.isBlank c = false :=
    fun width n c member => not_isBlank_of_isDigit (isDigit_of_mem_padded c member)
  have year : ∀ c ∈ yearChars i.date.year, Text.isBlank c = false := by
    rcases yearChars_cases i.date.year with ⟨-, text⟩ | ⟨-, text⟩ | ⟨-, -, text⟩ <;> rw [text]
    · exact List.forall_mem_cons.mpr ⟨rfl, digits _ _⟩
    · exact List.forall_mem_cons.mpr ⟨rfl, digits _ _⟩
    · exact digits _ _
  have fraction : ∀ c ∈ i.fractionChars, Text.isBlank c = false := by
    unfold fractionChars
    repeat' split
    · nofun
    all_goals
      exact List.forall_mem_cons.mpr ⟨by decide, digits _ _⟩
  have dash : Text.isBlank '-' = false := rfl
  have colon : Text.isBlank ':' = false := rfl
  simp only [timestampChars, Date.chars, clockChars, List.forall_mem_append, List.forall_mem_cons,
    List.append_assoc, List.cons_append]
  exact ⟨year, dash, digits _ _, dash, digits _ _, rfl, digits _ _, colon, digits _ _, colon,
    digits _ _, fraction, rfl, nofun⟩

theorem date_lt (i : Instant) : i.date.month < 100 ∧ i.date.day < 100 :=
  Date.ofDayNumber_lt _

/-- **A timestamp in four digits is read as the instant that it shows.** -/
theorem readTimestamp?_timestampChars {i : Instant} (fourDigits : i.InFourDigits) :
    readTimestamp? i.timestampChars = some i.shown := by
  obtain ⟨positive, small⟩ := fourDigits
  have year : yearChars i.date.year = padded 4 i.date.year.toNat := by
    have unsigned : i.date.year.natAbs = i.date.year.toNat := by omega
    rcases yearChars_cases i.date.year with ⟨negative, -⟩ | ⟨large, -⟩ | ⟨-, -, text⟩
    · exact absurd positive (Int.not_le.mpr negative)
    · exact absurd small (Int.not_le.mpr large)
    · rw [text, unsigned]
  have size : (i.date.year.toNat : Int) = i.date.year := Int.toNat_of_nonneg positive
  have exists_ : Date.of? i.date.year i.date.month i.date.day = some i.date :=
    Date.of?_ofDayNumber _
  have inClock := i.clock_le
  have text : i.timestampChars =
      padded 4 i.date.year.toNat ++ '-' :: padded 2 i.date.month ++ '-' :: padded 2 i.date.day ++
        'T' :: (padded 2 i.clock.1 ++ ':' :: padded 2 i.clock.2.1 ++ ':' :: padded 2 i.clock.2.2) ++
          (i.fractionChars ++ ['Z']) := by
    simp [timestampChars, Date.chars, clockChars, year]
  rw [text, readTimestamp?_numbers (by omega) i.date_lt (by omega),
    i.readFraction?_fractionChars (by simp)]
  simp only [Option.bind_eq_bind, Option.bind_some, readOffset?, size, exists_]
  rw [if_pos inClock, ofClock?_clock]

/-- Any other timestamp is none: it starts with a sign. -/
theorem readTimestamp?_of_not_inFourDigits {i : Instant} (more : ¬ i.InFourDigits) :
    readTimestamp? i.timestampChars = none := by
  have started : ∀ c digits, c.isDigit = false → yearChars i.date.year = c :: digits →
      readTimestamp? i.timestampChars = none := by
    intro c digits sign text
    rw [timestampChars, Date.chars, text]
    exact readTimestamp?_of_sign sign _
  rcases yearChars_cases i.date.year with ⟨-, text⟩ | ⟨-, text⟩ | ⟨positive, small, -⟩
  · exact started '-' _ rfl text
  · exact started '+' _ rfl text
  · exact absurd ⟨positive, small⟩ more

/-- The time of day makes a timestamp no date. -/
theorem readPlainDate?_timestampChars (i : Instant) : readPlainDate? i.timestampChars = none := by
  have text : i.timestampChars =
      i.date.chars ++ 'T' :: (i.clockChars ++ (i.fractionChars ++ ['Z'])) := by
    simp [timestampChars]
  rw [text, readPlainDate?_chars _ i.date_lt.1 i.date_lt.2]
  simp

/-- **A timestamp reads as the instant that it shows when its year has four digits, and else as
nothing.** -/
theorem readInstant?_timestamp (i : Instant) :
    readInstant? i.timestamp = if i.InFourDigits then some i.shown else none := by
  rw [readInstant?, timestamp, String.toList_ofList, Path.trim_of_shown i.shown_timestampChars,
    readPlainDate?_timestampChars]
  split
  · rename_i fourDigits
    rw [readTimestamp?_timestampChars fourDigits]
    rfl
  · rename_i more
    rw [readTimestamp?_of_not_inFourDigits more]
    rfl

end Instant

end Criteria.Calendar
