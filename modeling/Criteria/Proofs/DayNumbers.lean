/-
# Criteria.Proofs.DayNumbers -- every day has a date

`yearOfDay` finds the year that a day falls in, though it starts from a guess
(`yearStart_yearOfDay_le`, `lt_yearStart_succ`), and `monthOfOrdinal` takes whole months off
the days of that year (`exists_month_of_ordinal`).  So the date of a day exists and has that
day's number (`Date.of?_ofDayNumber`, `Date.dayNumber_ofDayNumber`).
-/
import Criteria.Calendar.Date
import Mathlib.Algebra.BigOperators.Group.List.Basic
import Mathlib.Algebra.Order.Ring.Int

namespace Criteria.Calendar

set_option autoImplicit false

/-! ## Years -/

/-- A year has the days of its months. -/
theorem yearStart_succ (year : Int) :
    yearStart (year + 1) = yearStart year + (monthLengths (isLeapYear year)).sum := by
  cases leap : isLeapYear year <;> simp [isLeapYear, monthLengths, yearStart] at leap ⊢ <;> omega

/-- A day is not before the year that it falls in. -/
theorem yearStart_yearOfDay_le (day : Int) : yearStart (yearOfDay day) ≤ day := by
  simp only [yearOfDay]
  split
  · -- The guess was a year too late, and no more than that.
    unfold yearStart at *
    omega
  · split
    · assumption
    · omega

/-- And it is before the next year. -/
theorem lt_yearStart_succ (day : Int) : day < yearStart (yearOfDay day + 1) := by
  simp only [yearOfDay]
  split
  · simpa
  · split
    · -- The guess was a year too early.
      unfold yearStart at *
      omega
    · omega

/-- The day of the year, from zero. -/
def ordinalOfDay (day : Int) : Nat :=
  (day - yearStart (yearOfDay day)).toNat

theorem yearStart_add_ordinalOfDay (day : Int) :
    yearStart (yearOfDay day) + ordinalOfDay day = day := by
  have notBefore := yearStart_yearOfDay_le day
  unfold ordinalOfDay
  omega

theorem ordinalOfDay_lt (day : Int) :
    ordinalOfDay day < (monthLengths (isLeapYear (yearOfDay day))).sum := by
  have next := lt_yearStart_succ day
  have whole := yearStart_add_ordinalOfDay day
  rw [yearStart_succ] at next
  omega

/-! ## Months -/

/-- The month of an ordinal, counted from `month`: the months before it have the days that
its own do not make up. -/
theorem exists_month_of_ordinal (lengths : List Nat) :
    ∀ month ordinal, ordinal < lengths.sum →
      ∃ index length before, lengths[index]? = some length ∧ before < length ∧
        monthOfOrdinal lengths month ordinal = (month + index, before + 1) ∧
        (lengths.take index).sum + before = ordinal := by
  induction lengths with
  | nil =>
      intro month ordinal inside
      simp at inside
  | cons length rest ih =>
      intro month ordinal inside
      rw [List.sum_cons] at inside
      by_cases here : ordinal < length
      · exact ⟨0, length, ordinal, rfl, here, by rw [monthOfOrdinal, if_pos here]; rfl, by simp⟩
      · obtain ⟨index, length', before, found, within, led, total⟩ :=
          ih (month + 1) (ordinal - length) (by omega)
        refine ⟨index + 1, length', before, found, within, ?_, ?_⟩
        · rw [monthOfOrdinal, if_neg here, led, Nat.add_right_comm, Nat.add_assoc]
        · rw [List.take_succ_cons, List.sum_cons]
          omega

/-- No year has more than twelve months, and no month more than 31 days. -/
theorem bounds_of_monthLengths {leap : Bool} {index length : Nat}
    (found : (monthLengths leap)[index]? = some length) : index < 12 ∧ length ≤ 31 := by
  have inside : index < (monthLengths leap).length := (List.getElem?_eq_some_iff.mp found).1
  have most : ∀ l ∈ monthLengths leap, l ≤ 31 := by cases leap <;> decide
  exact ⟨inside, most length (List.mem_of_getElem? found)⟩

namespace Date

/-- A day's date in its parts: a day of a month of the year that the day falls in. -/
theorem exists_ofDayNumber_eq (day : Int) :
    ∃ index length before,
      (monthLengths (isLeapYear (yearOfDay day)))[index]? = some length ∧ before < length ∧
        ofDayNumber day = ⟨yearOfDay day, index + 1, before + 1⟩ ∧
        ((monthLengths (isLeapYear (yearOfDay day))).take index).sum + before =
          ordinalOfDay day := by
  obtain ⟨index, length, before, found, within, led, total⟩ :=
    exists_month_of_ordinal _ 1 _ (ordinalOfDay_lt day)
  refine ⟨index, length, before, found, within, ?_, total⟩
  rw [ordinalOfDay] at led
  rw [ofDayNumber, led, Nat.add_comm 1]

/-- **The date of a day exists.** -/
theorem of?_ofDayNumber (day : Int) :
    of? (ofDayNumber day).year (ofDayNumber day).month (ofDayNumber day).day =
      some (ofDayNumber day) := by
  obtain ⟨index, length, before, found, within, date, -⟩ := exists_ofDayNumber_eq day
  have inMonth : 1 ≤ before + 1 ∧ before + 1 ≤ length := by omega
  rw [date]
  simp only [of?, found, if_pos inMonth]

/-- **The date of a day has the number of the day.** -/
theorem dayNumber_ofDayNumber (day : Int) : (ofDayNumber day).dayNumber = day := by
  obtain ⟨index, length, before, -, -, date, total⟩ := exists_ofDayNumber_eq day
  have whole := yearStart_add_ordinalOfDay day
  rw [date, dayNumber, Nat.add_sub_cancel, ← List.sum_eq_foldl]
  simp only
  omega

/-- Month and day of a day's date have two digits at most. -/
theorem ofDayNumber_lt (day : Int) :
    (ofDayNumber day).month < 100 ∧ (ofDayNumber day).day < 100 := by
  obtain ⟨index, length, before, found, within, date, -⟩ := exists_ofDayNumber_eq day
  obtain ⟨month, most⟩ := bounds_of_monthLengths found
  rw [date]
  simp only
  omega

end Date

end Criteria.Calendar
