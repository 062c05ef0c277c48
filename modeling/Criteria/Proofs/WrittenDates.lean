/-
# Criteria.Proofs.WrittenDates -- a date as text and as a number

A column of instants takes a date as text, `2024-03-01T10:00:00.000+02:00` or `2024-03-01`, and
as a number of milliseconds since 1970.  Here days are counted year by year and month by month
(`WrittenDate.days`), and the milliseconds of a local time from the same start
(`LocalTime.millis`).  Less the offset of its zone they are the number of its text: the two are
the same instant (`written_dates_agree_with_numbers`), also where the offset leads into another
year, or out of the years in four digits.

The closed formula that the calendar goes by finds the same days (`WrittenDate.dayNumber_date`).
A text of either form with a number that no date, clock or zone has becomes null.
-/
import Criteria.Proofs.Timestamps
import Criteria.Schema.Coercion

namespace Criteria

set_option autoImplicit false

/-! ## Blanks around a text -/

/-- Blanks around a text without blanks are what is trimmed. -/
theorem Text.trim_of_blank_around {before text after : List Char}
    (blankBefore : ∀ c ∈ before, isBlank c = true) (blankAfter : ∀ c ∈ after, isBlank c = true)
    (shown : ∀ c ∈ text, isBlank c = false) : trim (before ++ text ++ after) = text := by
  have around : ∃ front back, before ++ text ++ after = front ++ text ++ back ∧
      front.all isBlank = true ∧ back.all isBlank = true :=
    ⟨before, after, rfl, List.all_eq_true.mpr blankBefore, List.all_eq_true.mpr blankAfter⟩
  exact (stripped_iff.mp ⟨around, fun c first => shown c (List.mem_of_head? first),
    fun c last => shown c (List.mem_of_getLast? last)⟩).symm

namespace Calendar

/-! ## Counting days -/

/-- The days of all years before a year, from the year 0 on. -/
def daysBeforeYear : Nat → Nat
  | 0 => 0
  | year + 1 => daysBeforeYear year + (monthLengths (isLeapYear year)).sum

/-- The closed formula counts the days of all the years. -/
theorem yearStart_eq (year : Nat) : yearStart year = daysBeforeYear year - 719528 := by
  induction year with
  | zero => rfl
  | succ year ih =>
      have next := yearStart_succ year
      rw [daysBeforeYear]
      push_cast at ih next ⊢
      omega

theorem daysBeforeYear_1970 : daysBeforeYear 1970 = 719528 := by
  have start := yearStart_eq 1970
  have epoch : yearStart ((1970 : Nat) : Int) = 0 := rfl
  omega

/-- A date as it is written, in four digits, two and two, be there such a date or not. -/
structure WrittenDate where
  year : Fin 10000
  month : Fin 100
  day : Fin 100

namespace WrittenDate

/-- The days of its month; none when there is no such month. -/
def monthLength (d : WrittenDate) : Nat :=
  match d.month.val with
  | 0 => 0
  | index + 1 => (monthLengths (isLeapYear d.year.val))[index]?.getD 0

/-- The calendar has the date. -/
def Exists (d : WrittenDate) : Prop :=
  1 ≤ d.day.val ∧ d.day.val ≤ d.monthLength

instance (d : WrittenDate) : Decidable d.Exists :=
  inferInstanceAs (Decidable (_ ∧ _))

def date (d : WrittenDate) : Date :=
  ⟨d.year.val, d.month.val, d.day.val⟩

/-- The days since 1970-01-01: those of the years before, of the months before in its year, and
of its month before it. -/
def days (d : WrittenDate) : Int :=
  daysBeforeYear d.year.val + ((monthLengths (isLeapYear d.year.val)).take (d.month.val - 1)).sum +
    (d.day.val - 1) - daysBeforeYear 1970

def chars (d : WrittenDate) : List Char :=
  padded 4 d.year ++ '-' :: padded 2 d.month ++ '-' :: padded 2 d.day

theorem date_chars (d : WrittenDate) : d.date.chars = d.chars := by
  have small := d.year.isLt
  rcases yearChars_cases d.date.year with ⟨negative, -⟩ | ⟨large, -⟩ | ⟨-, -, text⟩
  · simp only [date] at negative
    omega
  · simp only [date] at large
    omega
  · rw [Date.chars, text]
    rfl

/-- The calendar finds the dates that exist. -/
theorem of?_eq (d : WrittenDate) :
    Date.of? d.year.val d.month.val d.day.val = if d.Exists then some d.date else none := by
  obtain ⟨year, ⟨_ | index, inDigits⟩, day⟩ := d
  · have none_ : ¬ Exists ⟨year, ⟨0, inDigits⟩, day⟩ := by
      simp only [Exists, monthLength]
      omega
    rw [if_neg none_]
    rfl
  · simp only [Date.of?]
    cases found : (monthLengths (isLeapYear year.val))[index]? with
    | none =>
        have none_ : ¬ Exists ⟨year, ⟨index + 1, inDigits⟩, day⟩ := by
          simp only [Exists, monthLength, found, Option.getD_none]
          omega
        rw [if_neg none_]
    | some length =>
        have some_ : Exists ⟨year, ⟨index + 1, inDigits⟩, day⟩ ↔
            1 ≤ day.val ∧ day.val ≤ length := by
          simp only [Exists, monthLength, found, Option.getD_some]
        simp only [some_]
        rfl

/-- **The day of a date is found by counting.** -/
theorem dayNumber_date (d : WrittenDate) : d.date.dayNumber = d.days := by
  rw [days, daysBeforeYear_1970, Date.dayNumber, ← List.sum_eq_foldl]
  simp only [date, yearStart_eq]
  omega

theorem sum_monthLengths_le (leap : Bool) : (monthLengths leap).sum ≤ 366 := by
  cases leap <;> decide

theorem daysBeforeYear_le (year : Nat) : daysBeforeYear year ≤ 366 * year := by
  induction year with
  | zero => exact Nat.le_refl 0
  | succ year ih =>
      have most := sum_monthLengths_le (isLeapYear year)
      rw [daysBeforeYear]
      omega

/-- Years in four digits are not as far away as instants reach. -/
theorem days_bounds (d : WrittenDate) : -719529 ≤ d.days ∧ d.days ≤ 3660000 := by
  have years := daysBeforeYear_le d.year
  have most := sum_monthLengths_le (isLeapYear d.year.val)
  have months := List.sum_take_add_sum_drop (monthLengths (isLeapYear d.year.val)) (d.month - 1)
  have year := d.year.isLt
  have day := d.day.isLt
  rw [days, daysBeforeYear_1970]
  omega

end WrittenDate

/-! ## Times of day and zones -/

/-- What is written behind a local time: how many hours and minutes it is ahead of UTC or behind
it, be there such a zone or not. -/
inductive Zone where
  | utc
  | offset (behind : Bool) (hours minutes : Fin 100)

namespace Zone

def chars : Zone → List Char
  | utc => ['Z']
  | offset behind hours minutes =>
      (if behind then '-' else '+') :: padded 2 hours ++ ':' :: padded 2 minutes

/-- It is less than a day, in minutes less than an hour. -/
def Exists : Zone → Prop
  | utc => True
  | offset _ hours minutes => hours.val ≤ 23 ∧ minutes.val ≤ 59

instance : (z : Zone) → Decidable z.Exists
  | utc => .isTrue trivial
  | offset _ _ _ => inferInstanceAs (Decidable (_ ∧ _))

/-- The minutes that it is ahead. -/
def minutes : Zone → Int
  | utc => 0
  | offset behind hours minutes =>
      if behind then -(hours * 60 + minutes : Int) else hours * 60 + minutes

end Zone

/-- A local time as it is written, to the millisecond. -/
structure LocalTime extends WrittenDate where
  hour : Fin 100
  minute : Fin 100
  second : Fin 100
  milli : Fin 1000

namespace LocalTime

def chars (t : LocalTime) : List Char :=
  t.toWrittenDate.chars ++
    'T' :: (padded 2 t.hour ++ ':' :: padded 2 t.minute ++ ':' :: padded 2 t.second) ++
      '.' :: padded 3 t.milli

/-- The milliseconds since the local time 1970-01-01T00:00:00.000. -/
def millis (t : LocalTime) : Int :=
  (((t.days * 24 + t.hour) * 60 + t.minute) * 60 + t.second) * 1000 + t.milli

/-- The date exists, and so does the zone, and a clock can show the time; it may be a second 60. -/
structure Possible (t : LocalTime) (z : Zone) : Prop where
  date : t.Exists
  clock : t.hour.val ≤ 23 ∧ t.minute.val ≤ 59 ∧ t.second.val ≤ 60
  zone : z.Exists

instance (t : LocalTime) (z : Zone) : Decidable (t.Possible z) :=
  decidable_of_iff
    (t.Exists ∧ (t.hour.val ≤ 23 ∧ t.minute.val ≤ 59 ∧ t.second.val ≤ 60) ∧ z.Exists)
    ⟨fun ⟨date, clock, zone⟩ => ⟨date, clock, zone⟩, fun p => ⟨p.date, p.clock, p.zone⟩⟩

end LocalTime

/-! ## Reading -/

theorem shown_padded (width n : Nat) : ∀ c ∈ padded width n, Text.isBlank c = false :=
  fun c member => not_isBlank_of_isDigit (isDigit_of_mem_padded c member)

theorem readDigits?_two (n : Fin 100) (rest : List Char) :
    readDigits? 2 (padded 2 n ++ rest) = some (n.val, rest) :=
  readDigits?_padded (by decide) n.isLt rest

theorem readDigits?_last (n : Fin 100) : readDigits? 2 (padded 2 n) = some (n.val, []) := by
  have last := readDigits?_two n []
  rwa [List.append_nil] at last

theorem readOffset?_sign (behind : Bool) (rest : List Char) :
    readOffset? ((if behind then '-' else '+') :: rest) = (do
      let (hours, rest) ← readDigits? 2 rest
      let rest ← readChar? ':' rest
      let (minutes, rest) ← readDigits? 2 rest
      if rest.isEmpty ∧ hours ≤ 23 ∧ minutes ≤ 59 then
        let size : Int := hours * 3600 + minutes * 60
        some (if behind then -size else size)
      else none) := by
  cases behind <;> rfl

/-- **A zone is read off its text when there is such a zone.** -/
theorem readOffset?_chars (z : Zone) :
    readOffset? z.chars = if z.Exists then some (z.minutes * 60) else none := by
  cases z with
  | utc => rfl
  | offset behind hours minutes =>
      rw [Zone.chars, List.cons_append, readOffset?_sign]
      refine bind_eq_of_some (readDigits?_two hours _) ?_
      refine bind_eq_of_some (readChar?_self ':' _) ?_
      refine bind_eq_of_some (readDigits?_last minutes) ?_
      have size : (if behind then -(hours * 3600 + minutes * 60 : Int)
          else hours * 3600 + minutes * 60) = (Zone.offset behind hours minutes).minutes * 60 := by
        simp only [Zone.minutes]
        split <;> omega
      simp only [size, List.isEmpty_nil, true_and, Zone.Exists]
      rfl

/-- **A timestamp is read off its text when its numbers are possible ones.** -/
theorem readTimestamp?_chars (t : LocalTime) (z : Zone) :
    readTimestamp? (t.chars ++ z.chars) =
      if t.Possible z then
        Instant.ofClock? t.date t.hour t.minute t.second (t.milli.val * 1000000) (z.minutes * 60)
      else none := by
  have noDigit : ∀ c ∈ z.chars.head?, c.isDigit = false := by
    rcases z with _ | ⟨_ | _, hours, minutes⟩ <;> rintro c ⟨⟩ <;> rfl
  have fraction : readFraction? ('.' :: padded 3 t.milli ++ z.chars) =
      some (t.milli.val * 1000000, z.chars) := by
    rw [readFraction?_digits (ne_nil_padded 3 _) isDigit_of_mem_padded noDigit,
      nanoseconds_padded (by decide) (by decide) t.milli.isLt]
    rfl
  rw [LocalTime.chars, WrittenDate.chars, List.append_assoc, readTimestamp?_numbers t.year.isLt
    ⟨t.month.isLt, t.day.isLt⟩ ⟨t.hour.isLt, t.minute.isLt, t.second.isLt⟩, fraction]
  simp only [Option.bind_eq_bind, Option.bind_some, readOffset?_chars, t.of?_eq]
  by_cases possible : t.Possible z
  · rw [if_pos possible, if_pos possible.zone, if_pos possible.date]
    exact if_pos possible.clock
  · rw [if_neg possible]
    by_cases zone : z.Exists
    · by_cases date : t.Exists
      · rw [if_pos zone, if_pos date]
        exact if_neg fun clock => possible ⟨date, clock, zone⟩
      · rw [if_pos zone, if_neg date]
        rfl
    · rw [if_neg zone]
      rfl

/-- A date alone is no timestamp. -/
theorem readTimestamp?_date (d : WrittenDate) : readTimestamp? d.chars = none := by
  simp only [WrittenDate.chars, List.append_assoc, List.cons_append]
  unfold readTimestamp?
  refine bind_eq_of_some (readDigits?_padded (by decide) d.year.isLt _) ?_
  refine bind_eq_of_some (readChar?_self '-' _) ?_
  refine bind_eq_of_some (readDigits?_two d.month _) ?_
  refine bind_eq_of_some (readChar?_self '-' _) ?_
  refine bind_eq_of_some (readDigits?_last d.day) ?_
  rfl

/-- A date is read off its text, and nothing may follow it. -/
theorem readPlainDate?_date (d : WrittenDate) (rest : List Char) :
    readPlainDate? (d.chars ++ rest) =
      if d.Exists ∧ rest = [] then Instant.ofClock? d.date 0 0 0 0 0 else none := by
  rw [← d.date_chars, readPlainDate?_chars d.date d.month.isLt d.day.isLt]
  have found := d.of?_eq
  change Date.of? d.date.year d.date.month d.date.day = _ at found
  rw [found]
  by_cases date : d.Exists <;> simp [date]

theorem WrittenDate.shown (d : WrittenDate) : ∀ c ∈ d.chars, Text.isBlank c = false := by
  have dash : Text.isBlank '-' = false := rfl
  simp only [chars, List.forall_mem_append, List.forall_mem_cons, List.append_assoc,
    List.cons_append]
  exact ⟨shown_padded _ _, dash, shown_padded _ _, dash, shown_padded _ _⟩

theorem Zone.shown (z : Zone) : ∀ c ∈ z.chars, Text.isBlank c = false := by
  cases z with
  | utc => exact List.forall_mem_singleton.mpr rfl
  | offset behind hours minutes =>
      have sign : Text.isBlank (if behind then '-' else '+') = false := by cases behind <;> rfl
      simp only [chars, List.forall_mem_append, List.forall_mem_cons, List.cons_append]
      exact ⟨sign, shown_padded _ _, rfl, shown_padded _ _⟩

theorem LocalTime.shown (t : LocalTime) : ∀ c ∈ t.chars, Text.isBlank c = false := by
  have colon : Text.isBlank ':' = false := rfl
  simp only [chars, List.forall_mem_append, List.forall_mem_cons, List.append_assoc,
    List.cons_append]
  exact ⟨t.toWrittenDate.shown, rfl, shown_padded _ _, colon, shown_padded _ _, colon,
    shown_padded _ _, rfl, shown_padded _ _⟩

/-! ## Instants -/

namespace Instant

/-- The instant is so many milliseconds after 1970 began, and no nanosecond more. -/
def IsAt (i : Instant) (millis : Int) : Prop :=
  i.second * 1000000000 + i.nano = millis * 1000000

/-- Not much more than thirty thousand years before or after 1970. -/
def Near (millis : Int) : Prop :=
  -1000000000000000 ≤ millis ∧ millis ≤ 1000000000000000

/-- Instants reach farther than that. -/
theorem exists_ofMillis? {millis : Int} (near : Near millis) :
    ∃ i, ofMillis? millis = some i ∧ i.IsAt millis := by
  have earliest : earliestSecond = -8334601228800 := rfl
  have latest : latestSecond = 8210266876799 := rfl
  rw [Near] at near
  have inRange : earliestSecond ≤ millis / 1000 ∧ millis / 1000 ≤ latestSecond := by omega
  have inSecond : (millis % 1000).toNat * 1000000 < 1000000000 := by omega
  refine ⟨⟨millis / 1000, (millis % 1000).toNat * 1000000, inRange, by omega⟩, ?_, ?_⟩
  · rw [ofMillis?, of?, dif_pos inRange, dif_pos (.inl inSecond)]
  · simp only [IsAt]
    omega

end Instant

namespace LocalTime

/-- **A time of day on a date is the number of its milliseconds**, less those of the offset. -/
theorem ofClock?_eq (t : LocalTime) (z : Zone) (plain : t.second.val < 60) :
    Instant.ofClock? t.date t.hour t.minute t.second (t.milli.val * 1000000) (z.minutes * 60) =
      Instant.ofMillis? (t.millis - z.minutes * 60000) := by
  have below := t.milli.isLt
  have notLeap : (t.second.val == 60) = false := by
    rw [beq_eq_false_iff_ne]
    omega
  have second : t.days * secondsPerDay + (t.hour * 3600 + t.minute * 60 + t.second : Int) -
      z.minutes * 60 = (t.millis - z.minutes * 60000) / 1000 := by
    rw [millis, secondsPerDay]
    omega
  have nano : t.milli.val * 1000000 =
      ((t.millis - z.minutes * 60000) % 1000).toNat * 1000000 := by
    rw [millis]
    omega
  rw [Instant.ofClock?, Instant.ofMillis?, t.dayNumber_date, notLeap, ← second, ← nano]
  rfl

theorem near (t : LocalTime) {z : Zone} (zone : z.Exists) :
    Instant.Near (t.millis - z.minutes * 60000) := by
  have days := t.days_bounds
  have hour := t.hour.isLt
  have minute := t.minute.isLt
  have second := t.second.isLt
  have milli := t.milli.isLt
  have offset : -1440 ≤ z.minutes ∧ z.minutes ≤ 1440 := by
    cases z with
    | utc => decide
    | offset behind hours minutes =>
        obtain ⟨most, less⟩ := zone
        simp only [Zone.minutes]
        split <;> omega
  rw [Instant.Near, millis]
  omega

end LocalTime

namespace WrittenDate

/-- The midnight of a date. -/
def midnight (d : WrittenDate) : LocalTime :=
  ⟨d, 0, 0, 0, 0⟩

theorem clock_midnight (d : WrittenDate) :
    d.midnight.hour.val = 0 ∧ d.midnight.minute.val = 0 ∧ d.midnight.second.val = 0 ∧
      d.midnight.milli.val = 0 :=
  ⟨rfl, rfl, rfl, rfl⟩

theorem millis_midnight (d : WrittenDate) :
    d.midnight.millis - Zone.utc.minutes * 60000 = d.days * 86400000 := by
  obtain ⟨hour, minute, second, milli⟩ := d.clock_midnight
  have days : d.midnight.days = d.days := rfl
  have utc : Zone.utc.minutes = 0 := rfl
  rw [LocalTime.millis, hour, minute, second, milli, days, utc]
  omega

/-- A date alone is its midnight in UTC. -/
theorem ofClock?_midnight (d : WrittenDate) :
    Instant.ofClock? d.date 0 0 0 0 0 =
      Instant.ofMillis? (d.midnight.millis - Zone.utc.minutes * 60000) := by
  obtain ⟨hour, minute, second, milli⟩ := d.clock_midnight
  rw [← d.midnight.ofClock?_eq .utc (by omega), hour, minute, second, milli]
  rfl

end WrittenDate

end Calendar

open Calendar

/-! ## Text and number -/

/-- The text and the number are one instant for columns of that type, so many milliseconds after
1970 began. -/
def SameInstant (type : ColumnType) (text : List Char) (millis : Int) : Prop :=
  ∃ (n : Int64) (i : Instant), n.toInt = millis ∧ i.IsAt millis ∧
    Coercion.epochMillis type (.int n) = .date i ∧
    Coercion.epochMillis type (.string (.ofList text)) = .date i

section

variable {type : ColumnType} (temporal : type.isTemporal = true)

include temporal

theorem sameInstant_of_ofMillis? {text : List Char} {millis : Int} (near : Instant.Near millis)
    (read : Coercion.epochMillis type (.string (.ofList text)) =
      Coercion.ofInstant? (Instant.ofMillis? millis)) : SameInstant type text millis := by
  obtain ⟨i, found, isAt⟩ := Instant.exists_ofMillis? near
  have number : (Int64.ofInt millis).toInt = millis :=
    Int64.toInt_ofInt_of_le (by rw [Instant.Near] at near; omega)
      (by rw [Instant.Near] at near; omega)
  refine ⟨.ofInt millis, i, number, isAt, ?_, ?_⟩
  · rw [Coercion.epochMillis, if_pos temporal, Coercion.toInstant?, number, found]
    rfl
  · rw [read, found]
    rfl

variable {before after : List Char} (blankBefore : ∀ c ∈ before, Text.isBlank c = true)
  (blankAfter : ∀ c ∈ after, Text.isBlank c = true)

include blankBefore blankAfter

/-- The blanks around a text do not count. -/
theorem epochMillis_text {text : List Char} (shown : ∀ c ∈ text, Text.isBlank c = false) :
    Coercion.epochMillis type (.string (.ofList (before ++ text ++ after))) =
      Coercion.ofInstant? (readTimestamp? text <|> readPlainDate? text) := by
  rw [Coercion.epochMillis, if_pos temporal, Coercion.toInstant?, readInstant?,
    String.toList_ofList, Text.trim_of_blank_around blankBefore blankAfter shown]

/-- **What becomes of a local time with its zone**, possible or not. -/
theorem epochMillis_time (t : LocalTime) (z : Zone) :
    Coercion.epochMillis type (.string (.ofList (before ++ (t.chars ++ z.chars) ++ after))) =
      if t.Possible z then
        Coercion.ofInstant? (Instant.ofClock? t.date t.hour t.minute t.second
          (t.milli.val * 1000000) (z.minutes * 60))
      else .null := by
  have noDate : readPlainDate? (t.chars ++ z.chars) = none := by
    rw [LocalTime.chars, List.append_assoc, List.append_assoc, readPlainDate?_date]
    simp
  have shown : ∀ c ∈ t.chars ++ z.chars, Text.isBlank c = false :=
    List.forall_mem_append.mpr ⟨t.shown, z.shown⟩
  have alone : ∀ i : Option Instant, (i <|> none) = i := fun i => by cases i <;> rfl
  rw [epochMillis_text temporal blankBefore blankAfter shown, noDate, alone, readTimestamp?_chars]
  split <;> rfl

/-- **What becomes of a date.** -/
theorem epochMillis_plainDate (d : WrittenDate) :
    Coercion.epochMillis type (.string (.ofList (before ++ d.chars ++ after))) =
      if d.Exists then Coercion.ofInstant? (Instant.ofClock? d.date 0 0 0 0 0) else .null := by
  have read := readPlainDate?_date d []
  rw [List.append_nil] at read
  rw [epochMillis_text temporal blankBefore blankAfter d.shown, readTimestamp?_date, read]
  by_cases date : d.Exists <;> simp [date, Coercion.ofInstant?]

end

/-! ## The theorem -/

/-- **A date is the same as text and as number.**  For a column of instants, blanks around the
text aside, a local time with its zone is the number of its milliseconds less those of the
offset, and a date alone that of its midnight in UTC.  A text of either form whose date is in no
calendar, whose time no clock shows or whose zone there is not is null. -/
theorem written_dates_agree_with_numbers {type : ColumnType} (temporal : type.isTemporal = true)
    {before after : List Char} (blankBefore : ∀ c ∈ before, Text.isBlank c = true)
    (blankAfter : ∀ c ∈ after, Text.isBlank c = true) :
    (∀ (t : LocalTime) (z : Zone), t.Possible z → t.second.val < 60 →
        SameInstant type (before ++ (t.chars ++ z.chars) ++ after)
          (t.millis - z.minutes * 60000)) ∧
      (∀ d : WrittenDate, d.Exists →
        SameInstant type (before ++ d.chars ++ after) (d.days * 86400000)) ∧
      (∀ (t : LocalTime) (z : Zone), ¬ t.Possible z →
        Coercion.epochMillis type (.string (.ofList (before ++ (t.chars ++ z.chars) ++ after))) =
          .null) ∧
      ∀ d : WrittenDate, ¬ d.Exists →
        Coercion.epochMillis type (.string (.ofList (before ++ d.chars ++ after))) = .null := by
  refine ⟨fun t z possible plain => ?_, fun d date => ?_, fun t z impossible => ?_,
    fun d missing => ?_⟩
  · refine sameInstant_of_ofMillis? temporal (t.near possible.zone) ?_
    rw [epochMillis_time temporal blankBefore blankAfter, if_pos possible, t.ofClock?_eq z plain]
  · rw [← d.millis_midnight]
    refine sameInstant_of_ofMillis? temporal (d.midnight.near trivial) ?_
    rw [epochMillis_plainDate temporal blankBefore blankAfter, if_pos date, d.ofClock?_midnight]
  · rw [epochMillis_time temporal blankBefore blankAfter, if_neg impossible]
  · rw [epochMillis_plainDate temporal blankBefore blankAfter, if_neg missing]

/-- The number of a local time, by the closed formula. -/
theorem millis_eq_dayNumber (t : LocalTime) :
    t.millis = (((t.date.dayNumber * 24 + t.hour) * 60 + t.minute) * 60 + t.second) * 1000 +
      t.milli := by
  rw [LocalTime.millis, t.dayNumber_date]

/-- A leap day that is over in UTC, with blanks around it; offsets that lead out of the years in
four digits, on either side; and the day before 1970.  There is no leap day in 1900, no second
61, and no offset of a day. -/
theorem written_dates_agree_with_numbers_far :
    SameInstant .timestamp "\u2003\t2000-02-29T23:30:00.250-01:00\n".toList 951870600250 ∧
      SameInstant .timestamp "\u2003\t9999-12-31T23:59:59.999-23:59\n".toList 253402387139999 ∧
      SameInstant .timestamp "\u2003\t0000-01-01T00:00:00.000+00:01\n".toList (-62167219260000) ∧
      SameInstant .timestamp "\u2003\t1969-12-31\n".toList (-86400000) ∧
      Coercion.epochMillis .timestamp (.string "\u2003\t1900-02-29\n") = .null ∧
      Coercion.epochMillis .timestamp (.string "\u2003\t2016-12-31T23:59:61.000Z\n") = .null ∧
      Coercion.epochMillis .timestamp (.string "\u2003\t2000-02-29T00:00:00.000+24:00\n") =
        .null := by
  have temporal : ColumnType.timestamp.isTemporal = true := rfl
  have blankBefore : ∀ c ∈ ['\u2003', '\t'], Text.isBlank c = true :=
    List.forall_mem_cons.mpr ⟨rfl, List.forall_mem_singleton.mpr rfl⟩
  have blankAfter : ∀ c ∈ ['\n'], Text.isBlank c = true := List.forall_mem_singleton.mpr rfl
  obtain ⟨times, dates, impossible, missing⟩ :=
    written_dates_agree_with_numbers temporal blankBefore blankAfter
  have leapDay := times ⟨⟨2000, 2, 29⟩, 23, 30, 0, 250⟩ (.offset true 1 0) (by decide) (by decide)
  have last := times ⟨⟨9999, 12, 31⟩, 23, 59, 59, 999⟩ (.offset true 23 59) (by decide) (by decide)
  have first := times ⟨⟨0, 1, 1⟩, 0, 0, 0, 0⟩ (.offset false 0 1) (by decide) (by decide)
  have eve := dates ⟨1969, 12, 31⟩ (by decide)
  rw [millis_eq_dayNumber] at leapDay last first
  rw [← WrittenDate.dayNumber_date] at eve
  exact ⟨leapDay, last, first, eve, missing ⟨1900, 2, 29⟩ (by decide),
    impossible ⟨⟨2016, 12, 31⟩, 23, 59, 61, 0⟩ .utc (by decide),
    impossible ⟨⟨2000, 2, 29⟩, 0, 0, 0, 0⟩ (.offset false 24 0) (by decide)⟩

end Criteria
