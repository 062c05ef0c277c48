/-
# Criteria.Proofs.Defusing -- nothing harmful is left in a written list

Defusing is two replacements, one after the other: `blankOut` puts a blank for each `drop`, and
then one for each semicolon (`defuseChars_eq_blankOut`).  Both leave no occurrence of their own
word (`absent_of_blankOut`), and neither the second one nor the doubling of quotes brings back a
word that was gone: all three only put marks into a text (`Masked`), and what stands between
marks stood there before (`Masked.contains`).

No harmful word reaches over a mark of the list either, for it is a single word itself
(`isWord_of_harmful`).  So a list is harmless when its literals are, and quoted ones are
defused and bare ones are numbers or truth values.
-/
import Criteria.Proofs.ListReading
import Mathlib.Data.List.Infix

namespace Criteria

set_option autoImplicit false

/-! ## Marks in a text -/

/-- `out` is `text` with marks put in, each for some part of the text or before it. -/
inductive Masked (mark : Char) : List Char → List Char → Prop where
  | nil : Masked mark [] []
  | keep {text out : List Char} (c : Char) :
      Masked mark text out → Masked mark (c :: text) (c :: out)
  | mask {text out : List Char} (part : List Char) :
      Masked mark text out → Masked mark (part ++ text) (mark :: out)

namespace Masked

variable {mark : Char} {text out word : List Char}

/-- A start without the mark is the start of the text. -/
theorem starts (masked : Masked mark text out) (foreign : mark ∉ word) (first : word <+: out) :
    word <+: text := by
  induction masked generalizing word with
  | nil => exact first
  | keep c _ ih =>
      rcases List.prefix_cons_iff.mp first with rfl | ⟨rest, rfl, later⟩
      · exact List.nil_prefix
      · exact List.cons_prefix_cons.mpr
          ⟨rfl, ih (fun inRest => foreign (List.mem_cons_of_mem _ inRest)) later⟩
  | mask part _ _ =>
      rcases List.prefix_cons_iff.mp first with rfl | ⟨rest, rfl, -⟩
      · exact List.nil_prefix
      · exact absurd List.mem_cons_self foreign

/-- **What stands between the marks stands in the text.** -/
theorem contains (masked : Masked mark text out) (foreign : mark ∉ word) (inside : word <:+: out) :
    word <:+: text := by
  induction masked with
  | nil => exact inside
  | keep c masked ih =>
      rcases List.infix_cons_iff.mp inside with first | later
      · exact ((masked.keep c).starts foreign first).isInfix
      · exact List.infix_cons (ih later)
  | mask part masked ih =>
      rcases List.infix_cons_iff.mp inside with first | later
      · exact ((masked.mask part).starts foreign first).isInfix
      · exact (ih later).trans (List.suffix_append part _).isInfix

theorem mem {c : Char} (masked : Masked mark text out) (foreign : c ≠ mark) (member : c ∈ out) :
    c ∈ text := by
  have alone : mark ∉ [c] := by simpa using foreign.symm
  have inside : [c] <:+: out := (List.singleton_infix_iff ..).mpr member
  exact (List.singleton_infix_iff ..).mp (masked.contains alone inside)

end Masked

theorem masked_doubleQuotes (text : List Char) : Masked '\'' text (doubleQuotes text) := by
  induction text with
  | nil => exact .nil
  | cons c rest ih =>
      rw [doubleQuotes]
      split
      · rename_i quote
        rw [quote]
        exact .mask [] (.keep '\'' ih)
      · exact .keep c ih

/-! ## Replacing a word -/

/-- Put a blank for each occurrence of a word, from the left. -/
def blankOut (word : List Char) : List Char → List Char
  | [] => []
  | c :: rest =>
      if word.isPrefixOf (c :: rest) then ' ' :: blankOut word (rest.drop (word.length - 1))
      else c :: blankOut word rest
  termination_by text => text.length
  decreasing_by all_goals grind

section

variable {word : List Char} {c : Char} {rest : List Char}

theorem blankOut_of_starts (first : word <+: c :: rest) :
    blankOut word (c :: rest) = ' ' :: blankOut word (rest.drop (word.length - 1)) := by
  rw [blankOut, if_pos (List.isPrefixOf_iff_prefix.mpr first)]

theorem blankOut_of_not_starts (other : ¬ word <+: c :: rest) :
    blankOut word (c :: rest) = c :: blankOut word rest := by
  rw [blankOut, if_neg fun first => other (List.isPrefixOf_iff_prefix.mp first)]

/-- A text that starts with the word goes on behind it. -/
theorem append_drop_of_starts (some_ : word ≠ []) (first : word <+: c :: rest) :
    word ++ rest.drop (word.length - 1) = c :: rest := by
  obtain ⟨behind, whole⟩ := first
  obtain ⟨d, others, rfl⟩ := List.exists_cons_of_ne_nil some_
  obtain ⟨rfl, rfl⟩ := List.cons.inj whole
  simp

theorem masked_blankOut (some_ : word ≠ []) (text : List Char) :
    Masked ' ' text (blankOut word text) := by
  fun_induction blankOut word text with
  | case1 => exact .nil
  | case2 c rest first ih =>
      rw [← append_drop_of_starts some_ (List.isPrefixOf_iff_prefix.mp first)]
      exact .mask word ih
  | case3 c rest _ ih => exact .keep c ih

/-- **No occurrence of the word is left**, and none comes about. -/
theorem absent_of_blankOut (some_ : word ≠ []) (foreign : ' ' ∉ word) (text : List Char) :
    ¬ word <:+: blankOut word text := by
  have masked := masked_blankOut some_ text
  fun_induction blankOut word text with
  | case1 => exact fun inside => some_ (List.infix_nil.mp inside)
  | case2 c rest _ ih =>
      intro inside
      rcases List.infix_cons_iff.mp inside with blank | later
      · obtain rfl | ⟨others, rfl, -⟩ := List.prefix_cons_iff.mp blank
        · exact some_ rfl
        · exact foreign List.mem_cons_self
      · exact ih (masked_blankOut some_ _) later
  | case3 c rest other ih =>
      intro inside
      rcases List.infix_cons_iff.mp inside with first | later
      · exact other (List.isPrefixOf_iff_prefix.mpr (masked.starts foreign first))
      · exact ih (masked_blankOut some_ _) later

theorem blankOut_eq_self {text : List Char} (absent : ¬ word <:+: text) :
    blankOut word text = text := by
  fun_induction blankOut word text with
  | case1 => rfl
  | case2 c rest first _ => exact absurd (List.isPrefixOf_iff_prefix.mp first).isInfix absent
  | case3 c rest _ ih => rw [ih fun later => absent (List.infix_cons later)]

end

/-! ## Harmful words -/

def harmful : List (List Char) :=
  [['d', 'r', 'o', 'p'], [';']]

/-- No harmful word is in the text. -/
def Harmless (text : List Char) : Prop :=
  ∀ word ∈ harmful, ¬ word <:+: text

instance (text : List Char) : Decidable (Harmless text) :=
  inferInstanceAs (Decidable (∀ word ∈ harmful, ¬ word <:+: text))

theorem harmless_iff {text : List Char} :
    Harmless text ↔ ¬ ['d', 'r', 'o', 'p'] <:+: text ∧ ¬ [';'] <:+: text := by
  simp [Harmless, harmful]

/-- Neither blanks nor quotes nor the marks of a list are in a harmful word. -/
theorem isWord_of_harmful : ∀ word ∈ harmful, IsWord word := by
  decide

theorem not_mem_of_isWord {c : Char} {word : List Char} (mark : isDelimiter c = true)
    (isWord : IsWord word) : c ∉ word := by
  intro member
  rw [isWord.2 c member] at mark
  cases mark

theorem harmless_nil : Harmless [] := by
  decide

/-- A blank or a quote for a part of a harmless text leaves it harmless. -/
theorem Harmless.masked {mark : Char} {text out : List Char} (harmless : Harmless text)
    (delimiter : isDelimiter mark = true) (masked : Masked mark text out) : Harmless out :=
  fun word member inside => harmless word member
    (masked.contains (not_mem_of_isWord delimiter (isWord_of_harmful word member)) inside)

/-- No harmful word reaches over a mark. -/
theorem Harmless.parted {mark : Char} {before behind : List Char} (first : Harmless before)
    (second : Harmless behind) (delimiter : isDelimiter mark = true) :
    Harmless (before ++ mark :: behind) := by
  intro word member inside
  have foreign := not_mem_of_isWord delimiter (isWord_of_harmful word member)
  rcases List.infix_append_iff.mp inside with left | right | ⟨start, more, rfl, ends, starts⟩
  · exact first word member left
  · rcases List.infix_cons_iff.mp right with here | later
    · rcases List.prefix_cons_iff.mp here with rfl | ⟨others, rfl, -⟩
      · exact first [] member List.nil_infix
      · exact foreign List.mem_cons_self
    · exact second word member later
  · rcases List.prefix_cons_iff.mp starts with rfl | ⟨others, rfl, -⟩
    · rw [List.append_nil] at member
      exact first start member ends.isInfix
    · exact foreign (by simp)

theorem Harmless.opened {mark : Char} {behind : List Char} (harmless : Harmless behind)
    (delimiter : isDelimiter mark = true) : Harmless (mark :: behind) :=
  harmless_nil.parted harmless delimiter

/-! ## Defusing -/

/-- **Defusing is two replacements in turn**, the semicolons last. -/
theorem defuseChars_eq_blankOut (text : List Char) :
    defuseChars text = blankOut [';'] (blankOut ['d', 'r', 'o', 'p'] text) := by
  have semicolon : ∀ c rest, blankOut [';'] (c :: rest) =
      (if c = ';' then ' ' else c) :: blankOut [';'] rest := by
    intro c rest
    split
    · rename_i same
      rw [blankOut_of_starts (by simp [same])]
      rfl
    · rename_i other
      exact blankOut_of_not_starts fun first => other (List.cons_prefix_cons.mp first).1.symm
  fun_induction defuseChars text with
  | case1 rest ih =>
      rw [blankOut_of_starts ⟨rest, rfl⟩, semicolon, ih]
      rfl
  | case2 c rest other ih =>
      rw [blankOut_of_not_starts, semicolon, ih]
      rintro ⟨behind, whole⟩
      obtain ⟨rfl, rfl⟩ := List.cons.inj whole
      exact other behind rfl rfl
  | case3 => rw [blankOut, blankOut]

theorem mem_of_mem_defuseChars {c : Char} {text : List Char} (foreign : c ≠ ' ')
    (member : c ∈ defuseChars text) : c ∈ text := by
  rw [defuseChars_eq_blankOut] at member
  have afterFirst := (masked_blankOut (by decide) _).mem foreign member
  exact (masked_blankOut (by decide) _).mem foreign afterFirst

/-- What was defused is harmless. -/
theorem harmless_defuseChars (text : List Char) : Harmless (defuseChars text) := by
  rw [defuseChars_eq_blankOut, harmless_iff]
  refine ⟨fun inside => ?_, absent_of_blankOut (by decide) (by decide) _⟩
  exact absent_of_blankOut (by decide) (by decide) text
    ((masked_blankOut (by decide) _).contains (by decide) inside)

/-- And what is harmless is not changed. -/
theorem defuseChars_eq_self {text : List Char} (harmless : Harmless text) :
    defuseChars text = text := by
  obtain ⟨word, semicolon⟩ := harmless_iff.mp harmless
  rw [defuseChars_eq_blankOut, blankOut_eq_self word, blankOut_eq_self semicolon]

/-! ## Written lists -/

/-- Without the letter that `drop` starts with, and without semicolons, a text is harmless. -/
theorem harmless_of_not_mem {text : List Char} (letter : 'd' ∉ text) (semicolon : ';' ∉ text) :
    Harmless text :=
  harmless_iff.mpr ⟨fun inside => letter (inside.subset List.mem_cons_self),
    fun inside => semicolon (inside.subset List.mem_cons_self)⟩

theorem harmless_of_isNumber {text : List Char} (plain : text.all isNumberChar = true) :
    Harmless text := by
  have inClass : ∀ c ∈ text, isNumberChar c = true := List.all_eq_true.mp plain
  exact harmless_of_not_mem (fun letter => absurd (inClass 'd' letter) (by decide))
    fun semicolon => absurd (inClass ';' semicolon) (by decide)

theorem harmless_quoteChars (text : List Char) : Harmless (quoteChars text) := by
  have inner : Harmless (doubleQuotes (defuseChars text)) :=
    (harmless_defuseChars text).masked rfl (masked_doubleQuotes _)
  exact (inner.opened rfl).parted harmless_nil rfl

theorem harmless_of_literal? {kind : LiteralKind} {v : Value} (accepted : kind.accepts v = true)
    {l : Literal} (written : kind.literal? v = some l) : Harmless l.chars := by
  cases l with
  | quoted text => exact harmless_quoteChars text
  | bare text =>
      obtain ⟨plain, rfl⟩ := plain_of_bare accepted written
      exact harmless_of_isNumber (isNumber_chars plain).2

/-- The commas between literals keep them apart. -/
theorem harmless_joinLiterals {ls : List Literal} (each : ∀ l ∈ ls, Harmless l.chars) :
    Harmless (joinLiterals ls) :=
  joinLiterals_induction harmless_nil
    (fun before behind => before.parted (behind.opened rfl) rfl) each

theorem harmless_listChars {ls : List Literal} (each : ∀ l ∈ ls, Harmless l.chars) :
    Harmless (listChars ls) := by
  unfold listChars
  split
  · decide
  · have opened : Harmless ('(' :: ' ' :: joinLiterals ls) :=
      ((harmless_joinLiterals each).opened rfl).opened rfl
    exact opened.parted (by decide) rfl

/-- **Nothing harmful is left.**  Defusing puts a blank for each `drop` and then for each
semicolon; what it leaves has neither, also not by what came together around them, so a second
time changes nothing, and a text without them is the only one that is not changed at all.  A
written list has neither of them, not even from one item into the next. -/
theorem nothing_harmful_left :
    (∀ s, (defuse s).toList = blankOut [';'] (blankOut ['d', 'r', 'o', 'p'] s.toList) ∧
      Harmless (defuse s).toList ∧ defuse (defuse s) = defuse s ∧
      (defuse s = s ↔ Harmless s.toList)) ∧
    ∀ key items written, renderList key items = .ok written → Harmless written.toList := by
  constructor
  · intro s
    have chars : (defuse s).toList = defuseChars s.toList := String.toList_ofList
    have harmless : Harmless (defuse s).toList := by
      rw [chars]
      exact harmless_defuseChars s.toList
    have unchanged : ∀ t : String, Harmless t.toList → defuse t = t := by
      intro t plain
      rw [defuse, defuseChars_eq_self plain, String.ofList_toList]
    refine ⟨chars.trans (defuseChars_eq_blankOut _), harmless, unchanged _ harmless, ?_,
      unchanged s⟩
    intro same
    rw [← same]
    exact harmless
  · intro key items written rendered
    rw [renderList] at rendered
    cases found : literals key items with
    | error f => simp [found, Except.map] at rendered
    | ok ls =>
        simp only [found, Except.map, Except.ok.injEq] at rendered
        subst rendered
        rw [String.toList_ofList]
        refine harmless_listChars fun l member => ?_
        obtain ⟨kind, v, -, accepted, literal⟩ := exists_item_of_literals found l member
        exact harmless_of_literal? accepted literal

/-- One word inside another, one cut in two by a semicolon, and one that starts in one item and
goes on in the next. -/
theorem nothing_harmful_left_hostile :
    defuse "drdropop" = "dr op" ∧ Harmless (defuse "drdropop").toList ∧
      renderList "name" [.enum "dr", .string "op", .null, .enum "d'r;op"] =
        .ok "( 'dr', 'op', 'd''r op' )" ∧
      Harmless "( 'dr', 'op', 'd''r op' )".toList :=
  ⟨rfl, (nothing_harmful_left.1 "drdropop").2.1, rfl, nothing_harmful_left.2 "name"
    [.enum "dr", .string "op", .null, .enum "d'r;op"] _ rfl⟩

end Criteria
