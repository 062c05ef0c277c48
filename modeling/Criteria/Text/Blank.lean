/-
# Criteria.Text.Blank -- blank characters and trimming

Keys, numerals and dates are read without the blanks around them, a list
literal made of blanks alone is dropped, and a fragment is written without its
outer blanks.  Blank means Unicode's `White_Space` property throughout.

`exists_blank_append_trim` says that trimming removes blanks at the two ends and
nothing else, and `stripped_iff` that it removes all of them.
-/
namespace Criteria.Text

set_option autoImplicit false

/-- The characters with Unicode's `White_Space` property. -/
def isBlank (c : Char) : Bool :=
  let n := c.toNat
  (9 ≤ n && n ≤ 13) || n == 0x20 || n == 0x85 || n == 0xA0 || n == 0x1680 ||
    (0x2000 ≤ n && n ≤ 0x200A) || n == 0x2028 || n == 0x2029 || n == 0x202F ||
    n == 0x205F || n == 0x3000

def trimStart (text : List Char) : List Char :=
  text.dropWhile isBlank

def trimEnd (text : List Char) : List Char :=
  (text.reverse.dropWhile isBlank).reverse

/-- The text without the blanks at its two ends. -/
def trim (text : List Char) : List Char :=
  trimEnd (trimStart text)

/-! ## What trimming removes -/

theorem exists_blank_append_trimStart (text : List Char) :
    ∃ before, text = before ++ trimStart text ∧ before.all isBlank = true :=
  ⟨text.takeWhile isBlank, (List.takeWhile_append_dropWhile).symm, List.all_takeWhile⟩

theorem exists_trimEnd_append_blank (text : List Char) :
    ∃ after, text = trimEnd text ++ after ∧ after.all isBlank = true := by
  refine ⟨(text.reverse.takeWhile isBlank).reverse, ?_, ?_⟩
  · rw [trimEnd, ← List.reverse_append, List.takeWhile_append_dropWhile, List.reverse_reverse]
  · rw [List.all_reverse]
    exact List.all_takeWhile

/-- Trimming removes blanks and nothing else. -/
theorem exists_blank_append_trim (text : List Char) :
    ∃ before after, text = before ++ trim text ++ after ∧
      before.all isBlank = true ∧ after.all isBlank = true := by
  obtain ⟨before, hb, blankBefore⟩ := exists_blank_append_trimStart text
  obtain ⟨after, ha, blankAfter⟩ := exists_trimEnd_append_blank (trimStart text)
  exact ⟨before, after, by rw [List.append_assoc, trim, ← ha]; exact hb, blankBefore, blankAfter⟩

/-- A character that is not blank stays as often as it was. -/
theorem count_trim {c : Char} (shown : isBlank c = false) (text : List Char) :
    (trim text).count c = text.count c := by
  obtain ⟨before, after, whole, blankBefore, blankAfter⟩ := exists_blank_append_trim text
  have absent : ∀ blanks : List Char, blanks.all isBlank = true → blanks.count c = 0 := by
    intro blanks blank
    rw [List.count_eq_zero]
    intro member
    rw [List.all_eq_true.mp blank c member] at shown
    cases shown
  have counted := congrArg (List.count c) whole
  rw [List.count_append, List.count_append, absent _ blankBefore, absent _ blankAfter] at counted
  omega

/-! ## What trimming leaves -/

/-- The text is its core with blanks around it, and the core starts and ends with none. -/
structure Stripped (text core : List Char) : Prop where
  surrounded : ∃ before after, text = before ++ core ++ after ∧
    before.all isBlank = true ∧ after.all isBlank = true
  front : ∀ c, core.head? = some c → isBlank c = false
  back : ∀ c, core.getLast? = some c → isBlank c = false

theorem trimStart_of_front {core : List Char}
    (front : ∀ c, core.head? = some c → isBlank c = false) : trimStart core = core := by
  cases core with
  | nil => rfl
  | cons c rest => exact List.dropWhile_cons_of_neg (by simp [front c rfl])

theorem trimEnd_of_back {core : List Char}
    (back : ∀ c, core.getLast? = some c → isBlank c = false) : trimEnd core = core := by
  have kept : trimStart core.reverse = core.reverse :=
    trimStart_of_front (by simpa only [List.head?_reverse] using back)
  rw [trimEnd, ← trimStart, kept, List.reverse_reverse]

theorem not_isBlank_of_head?_trimStart {text : List Char} {c : Char}
    (first : (trimStart text).head? = some c) : isBlank c = false := by
  have stops := List.head?_dropWhile_not isBlank text
  rw [← trimStart, first] at stops
  exact stops

theorem stripped_trim (text : List Char) : Stripped text (trim text) where
  surrounded := exists_blank_append_trim text
  front := by
    intro c first
    -- What is taken off the end leaves the first character where it is.
    obtain ⟨after, whole, -⟩ := exists_trimEnd_append_blank (trimStart text)
    have there : (trimStart text).head? = some c := by
      rw [whole, List.head?_append, ← trim, first]
      rfl
    exact not_isBlank_of_head?_trimStart there
  back := by
    intro c last
    rw [trim, trimEnd, List.getLast?_reverse] at last
    exact not_isBlank_of_head?_trimStart last

/-- **Trimming leaves the core**, and a text has one only. -/
theorem stripped_iff {text core : List Char} : Stripped text core ↔ core = trim text := by
  constructor
  · rintro ⟨⟨before, after, rfl, blankBefore, blankAfter⟩, front, back⟩
    rw [List.all_eq_true] at blankBefore blankAfter
    have start : trimStart (before ++ core ++ after) = trimStart (core ++ after) := by
      rw [List.append_assoc, trimStart, List.dropWhile_append_of_pos blankBefore, trimStart]
    rw [trim, start]
    cases core with
    | nil =>
        have nothing : trimStart (after ++ []) = [] := List.dropWhile_append_of_pos blankAfter
        rw [List.append_nil] at nothing
        rw [List.nil_append, nothing]
        rfl
    | cons c rest =>
        have kept : trimStart (c :: rest ++ after) = c :: rest ++ after := trimStart_of_front front
        have reversed : ∀ c ∈ after.reverse, isBlank c = true := by simpa using blankAfter
        rw [kept, trimEnd, List.reverse_append, List.dropWhile_append_of_pos reversed]
        exact (trimEnd_of_back back).symm
  · rintro rfl
    exact stripped_trim text

theorem trim_trim (text : List Char) : trim (trim text) = trim text := by
  have core := stripped_trim text
  have whole : trim text = [] ++ trim text ++ [] := (List.append_nil _).symm
  exact (stripped_iff.mp ⟨⟨[], [], whole, rfl, rfl⟩, core.front, core.back⟩).symm

end Criteria.Text
