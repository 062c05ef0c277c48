/-
# Criteria.Proofs.PathTexts -- the texts that name a field

A field is named as `field` or `alias.field`, with blanks around the whole and nowhere else.
`PathText` is that grammar, each form with the path that it is the text of.  Reading cuts at the
first dot and looks at both parts; since a name has no dot of its own, what it finds is what the
grammar says (`parse_eq_ok_iff`).

The text of a path that was read is the one that was read, less the blanks around it.  So a path
is read again as itself, and two texts are read alike only if they are the same text there
(`paths_read_exactly`).
-/
import Criteria.Node
import Criteria.Proofs.NodeDocuments

namespace Criteria

set_option autoImplicit false

namespace Path

/-! ## The grammar -/

/-- The letters that names are made of. -/
inductive Letter : Char → Prop where
  | upper {c : Char} : 'A' ≤ c → c ≤ 'Z' → Letter c
  | lower {c : Char} : 'a' ≤ c → c ≤ 'z' → Letter c
  | digit {c : Char} : '0' ≤ c → c ≤ '9' → Letter c
  | underscore : Letter '_'
  | dollar : Letter '$'

/-- One letter or more. -/
inductive Identifier : List Char → Prop where
  | last {c : Char} : Letter c → Identifier [c]
  | cons {c : Char} {rest : List Char} : Letter c → Identifier rest → Identifier (c :: rest)

/-- The text of a path. -/
inductive PathText : List Char → Path → Prop where
  | field {name : List Char} : Identifier name → PathText name ⟨none, .ofList name⟩
  | qualified {qualifier name : List Char} : Identifier qualifier → Identifier name →
      PathText (qualifier ++ '.' :: name) ⟨some (.ofList qualifier), .ofList name⟩

/-! ## Names -/

theorem letter_iff {c : Char} : Letter c ↔ isNameChar c = true := by
  rw [isNameChar_iff]
  constructor
  · intro letter
    cases letter with
    | upper first last => exact .inl ⟨first, last⟩
    | lower first last => exact .inr (.inl ⟨first, last⟩)
    | digit first last => exact .inr (.inr (.inl ⟨first, last⟩))
    | underscore => exact .inr (.inr (.inr (.inl rfl)))
    | dollar => exact .inr (.inr (.inr (.inr rfl)))
  · rintro (⟨first, last⟩ | ⟨first, last⟩ | ⟨first, last⟩ | rfl | rfl)
    · exact .upper first last
    · exact .lower first last
    · exact .digit first last
    · exact .underscore
    · exact .dollar

theorem isName_cons {c : Char} {rest : List Char} :
    isName (c :: rest) = true ↔ isNameChar c = true ∧ (rest = [] ∨ isName rest = true) := by
  cases rest <;> simp [isName]

theorem identifier_iff {text : List Char} : Identifier text ↔ isName text = true := by
  constructor
  · intro identifier
    induction identifier with
    | last letter => exact isName_cons.mpr ⟨letter_iff.mp letter, .inl rfl⟩
    | cons letter _ ih => exact isName_cons.mpr ⟨letter_iff.mp letter, .inr ih⟩
  · intro name
    induction text with
    | nil => cases name
    | cons c rest ih =>
        obtain ⟨letter, rfl | more⟩ := isName_cons.mp name
        · exact .last (letter_iff.mpr letter)
        · exact .cons (letter_iff.mpr letter) (ih more)

/-! ## Reading -/

namespace PathText

variable {text : List Char} {p : Path}

/-- The grammar gives a path its own text. -/
theorem toList_text (said : PathText text p) : p.text.toList = text := by
  cases said with
  | field _ => simp [Path.text]
  | qualified _ _ => simp [Path.text]

theorem parse_text (said : PathText text p) : parse p.text = .ok p := by
  cases said with
  | field name =>
      refine parse_text_of_names ?_ nofun
      rw [String.toList_ofList]
      exact identifier_iff.mp name
  | qualified qualifier name =>
      refine parse_text_of_names ?_ fun named same => ?_
      · rw [String.toList_ofList]
        exact identifier_iff.mp name
      · rw [← Option.some.inj same, String.toList_ofList]
        exact identifier_iff.mp qualifier

end PathText

/-- The blanks around a text do not matter. -/
theorem parse_of_sameTrim {s t : String} (same : Text.trim s.toList = Text.trim t.toList) :
    parse s = parse t := by
  unfold parse
  rw [same]

/-- What was read is the path of the text. -/
theorem pathText_of_parse {s : String} {p : Path} (read : parse s = .ok p) :
    PathText (Text.trim s.toList) p := by
  have parts := List.takeWhile_append_dropWhile (p := (· ≠ '.')) (l := Text.trim s.toList)
  simp only [parse] at read
  split at read
  · split at read
    · rename_i name
      cases read
      exact .field (identifier_iff.mpr name)
    · cases read
  · rename_i dot field cut
    split at read
    · rename_i names
      cases read
      rw [Bool.and_eq_true] at names
      -- The cut is at a dot, for that is where the search stops.
      have stops := List.head?_dropWhile_not (· ≠ '.') (Text.trim s.toList)
      rw [cut] at stops
      have isDot : dot = '.' := by simpa using stops
      rw [cut, isDot] at parts
      have said := PathText.qualified (identifier_iff.mpr names.1) (identifier_iff.mpr names.2)
      rwa [parts] at said
    · cases read

/-- **Reading gives the path that the grammar says**, if it says one. -/
theorem parse_eq_ok_iff {s : String} {p : Path} :
    parse s = .ok p ↔ PathText (Text.trim s.toList) p := by
  constructor
  · exact pathText_of_parse
  · intro said
    have same : Text.trim s.toList = Text.trim p.text.toList := by
      rw [said.toList_text, Text.trim_trim]
    rw [parse_of_sameTrim same]
    exact said.parse_text

/-- What is not read comes back with the fault. -/
theorem toList_of_parse_eq_error {s text : String} (refused : parse s = .error text) :
    text.toList = Text.trim s.toList := by
  simp only [parse] at refused
  split at refused <;> split at refused <;> cases refused <;> exact String.toList_ofList

/-- A text says a path when it is a name, or two with a dot between them. -/
theorem exists_pathText_iff {text : List Char} :
    (∃ p, PathText text p) ↔ Identifier text ∨
      ∃ qualifier name, Identifier qualifier ∧ Identifier name ∧ text = qualifier ++ '.' :: name := by
  constructor
  · rintro ⟨p, said⟩
    cases said with
    | field name => exact .inl name
    | qualified qualifier name => exact .inr ⟨_, _, qualifier, name, rfl⟩
  · rintro (name | ⟨_, _, qualifier, name, rfl⟩)
    · exact ⟨_, .field name⟩
    · exact ⟨_, .qualified qualifier name⟩

end Path

open Criteria.Path (PathText Identifier)

/-- **The texts of paths are read, and no others.**  What counts of a text is its core, without
the blanks around it.  It is read exactly if the core is a name or two names with a dot between
them.  Then the path is the one that the grammar says and the core is its text, so that it reads
as itself and comes from no text with another core; otherwise the key is invalid, by that core. -/
theorem paths_read_exactly (s t : String) :
    (∀ core, Text.Stripped s.toList core ↔ core = Text.trim s.toList) ∧
      ((∃ p, Path.parse s = .ok p) ↔ Identifier (Text.trim s.toList) ∨
        ∃ qualifier name, Identifier qualifier ∧ Identifier name ∧
          Text.trim s.toList = qualifier ++ '.' :: name) ∧
      (∀ p, Path.parse s = .ok p → PathText (Text.trim s.toList) p ∧
        p.text.toList = Text.trim s.toList ∧ Path.parse p.text = .ok p) ∧
      (∀ p, Path.parse s = .ok p → Path.parse t = .ok p →
        Text.trim s.toList = Text.trim t.toList) ∧
      ∀ text, Path.parse s = .error text → text.toList = Text.trim s.toList ∧
        ∀ predicate v, Node.ofKey s predicate v = .error (.invalidKey text) := by
  refine ⟨fun core => Text.stripped_iff, ?_, fun p read => ?_, fun p here there => ?_,
    fun text refused => ⟨Path.toList_of_parse_eq_error refused, fun predicate v => ?_⟩⟩
  · rw [← Path.exists_pathText_iff]
    exact exists_congr fun p => Path.parse_eq_ok_iff
  · have said := Path.parse_eq_ok_iff.mp read
    exact ⟨said, said.toList_text, said.parse_text⟩
  · have own := (Path.parse_eq_ok_iff.mp here).toList_text
    have other := (Path.parse_eq_ok_iff.mp there).toList_text
    exact own.symm.trans other
  · rw [Node.ofKey, refused]

/-- Two texts that are read alike, and one with a dot too many. -/
theorem paths_read_exactly_qualified :
    Path.parse "\u2003u.$born_2\t" = .ok ⟨some "u", "$born_2"⟩ ∧
      Path.parse "u.$born_2 " = .ok ⟨some "u", "$born_2"⟩ ∧
      (Path.mk (some "u") "$born_2").text.toList = Text.trim "\u2003u.$born_2\t".toList ∧
      Text.trim "\u2003u.$born_2\t".toList = Text.trim "u.$born_2 ".toList ∧
      Path.parse "a.b.c " = .error "a.b.c" ∧
      Node.ofKey "a.b.c " (.compare .eq) .null = .error (.invalidKey "a.b.c") := by
  have read : Path.parse "\u2003u.$born_2\t" = .ok ⟨some "u", "$born_2"⟩ := rfl
  have alike : Path.parse "u.$born_2 " = .ok ⟨some "u", "$born_2"⟩ := rfl
  have refused : Path.parse "a.b.c " = .error "a.b.c" := rfl
  obtain ⟨-, -, written, same, -⟩ := paths_read_exactly "\u2003u.$born_2\t" "u.$born_2 "
  obtain ⟨-, -, -, -, invalid⟩ := paths_read_exactly "a.b.c " ""
  exact ⟨read, alike, (written _ read).2.1, same _ read alike, refused, (invalid _ refused).2 _ _⟩

end Criteria
