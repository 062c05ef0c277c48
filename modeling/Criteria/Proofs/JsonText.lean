/-
# Criteria.Proofs.JsonText -- the compact text of a JSON value reads back

The text of a value is cut into the lexemes of the value (`lexemes_chars`), and these make up
the value's document (`ofText_chars`).  Only a double may be another one there, or too large to
be read: its document is what its text is read as (`float_cases`).  Integers stay as they are,
when 64 bits hold them (`Bounded`).

A reader of the document may run out of room for the containers that are open at once.
`Json.nesting` counts them in the value, and there are as many in its text
(`mostOpen_lexemes_chars`).
-/
import Criteria.Json.Decode
import Criteria.Proofs.JsonNumbers

namespace Criteria.Json

set_option autoImplicit false

/-- All integers in the value are of 64 bits, with a sign or without. -/
inductive Bounded : Json → Prop where
  | null : Bounded .null
  | bool (b : Bool) : Bounded (.bool b)
  | integer {n : Int} : -Nat.pow 2 63 ≤ n → n < Nat.pow 2 64 → Bounded (.integer n)
  | float (x : Float) : Bounded (.float x)
  | string (s : String) : Bounded (.string s)
  | array {items : List Json} : (∀ item ∈ items, Bounded item) → Bounded (.array items)
  | object {fields : List (String × Json)} :
      (∀ field ∈ fields, Bounded field.2) → Bounded (.object fields)

/-! ## Strings -/

theorem codeUnit?_hexDigit :
    ∀ n < 32, codeUnit? '0' '0' (hexDigit (n / 16)) (hexDigit (n % 16)) = some n := by
  decide

/-- A character that has no escape stands for itself. -/
theorem quotedText_plain {c : Char} (quote : c ≠ '"') (backslash : c ≠ '\\')
    (shown : 32 ≤ c.toNat) (rest : List Char) :
    quotedText none (c :: rest) = (quotedText none rest).cons c := by
  rw [quotedText]
  · rw [if_neg (Nat.not_lt.mpr shown)]
    rfl
  all_goals simp_all

/-- Each character of a string is read back, escaped or not. -/
theorem quotedText_escape (c : Char) (rest : List Char) :
    quotedText none ((escape? c).getD [c] ++ rest) = (quotedText none rest).cons c := by
  unfold escape?
  iterate 7
    split
    · subst c
      rfl
  rename_i quote backslash _ _ _ _ _
  split
  · rename_i control
    have unit := codeUnit?_hexDigit c.toNat control
    have alone : surrogate? c.toNat = none := by
      unfold surrogate?
      rw [if_neg (by omega), if_neg (by omega)]
    simp only [Option.getD_some, List.cons_append, List.nil_append]
    rw [quotedText, unit]
    simp only [alone, Char.ofNat_toNat]
  · rename_i shown
    exact quotedText_plain quote backslash (Nat.le_of_not_lt shown) rest

/-- **An escaped string reads back**, up to the quote that ends it. -/
theorem quotedText_escaped (text rest : List Char) :
    quotedText none (escaped text ++ '"' :: rest) = ⟨.ok text, .ok rest⟩ := by
  induction text with
  | nil => rfl
  | cons c text ih =>
      have split : escaped (c :: text) ++ '"' :: rest =
          (escape? c).getD [c] ++ (escaped text ++ '"' :: rest) := by
        rw [escaped, List.flatMap_cons, List.append_assoc]
        rfl
      rw [split, quotedText_escape, ih]
      rfl

/-! ## Lexemes -/

theorem lexemes_openArray (text : List Char) : lexemes ('[' :: text) = .openArray :: lexemes text :=
  lexemes_of_part rfl rfl

theorem lexemes_closeArray (text : List Char) :
    lexemes (']' :: text) = .closeArray :: lexemes text :=
  lexemes_of_part rfl rfl

theorem lexemes_openObject (text : List Char) :
    lexemes ('\x7b' :: text) = .openObject :: lexemes text :=
  lexemes_of_part rfl rfl

theorem lexemes_closeObject (text : List Char) :
    lexemes ('\x7d' :: text) = .closeObject :: lexemes text :=
  lexemes_of_part rfl rfl

theorem lexemes_comma (text : List Char) : lexemes (',' :: text) = .comma :: lexemes text :=
  lexemes_of_part rfl rfl

theorem lexemes_colon (text : List Char) : lexemes (':' :: text) = .colon :: lexemes text :=
  lexemes_of_part rfl rfl

theorem lexemes_quoted (s : String) (rest : List Char) :
    lexemes (quoted s ++ rest) = .string (.ok s) :: lexemes rest := by
  have text : quoted s ++ rest = '"' :: (escaped s.toList ++ '"' :: rest) := by
    simp [quoted]
  rw [text]
  refine lexemes_of_part rfl ?_
  have part : lexemePart '"' (escaped s.toList ++ '"' :: rest) =
      stringPart (escaped s.toList ++ '"' :: rest) := rfl
  rw [part, stringPart, quotedText_escaped]
  simp [Except.map]

mutual

/-- The lexemes of a value; a double has those of its text. -/
def marks : Json → List Lexeme
  | .null => [.null]
  | .bool b => [.bool b]
  | .integer n => [.number (.ok (.integer n))]
  | .float x => lexemes (Json.float x).chars
  | .string s => [.string (.ok s)]
  | .array items => .openArray :: itemsMarks items ++ [.closeArray]
  | .object fields => .openObject :: fieldsMarks fields ++ [.closeObject]

def itemsMarks : List Json → List Lexeme
  | [] => []
  | [item] => item.marks
  | item :: rest => item.marks ++ .comma :: itemsMarks rest

def fieldsMarks : List (String × Json) → List Lexeme
  | [] => []
  | [(name, value)] => .string (.ok name) :: .colon :: value.marks
  | (name, value) :: rest =>
      .string (.ok name) :: .colon :: value.marks ++ .comma :: fieldsMarks rest

end

/-- The text of `j` is cut into its lexemes, whatever follows it. -/
def CutsWell (j : Json) : Prop :=
  ∀ rest, Delimited rest → lexemes (j.chars ++ rest) = j.marks ++ lexemes rest

theorem lexemes_itemsChars {items : List Json} (each : ∀ item ∈ items, item.CutsWell)
    {rest : List Char} (delimited : Delimited rest) :
    lexemes (itemsChars items ++ rest) = itemsMarks items ++ lexemes rest := by
  induction items with
  | nil => rfl
  | cons item others ih =>
      have first := each item List.mem_cons_self
      have behind := ih fun other member => each other (List.mem_cons_of_mem _ member)
      cases others with
      | nil => exact first rest delimited
      | cons next others =>
          simp only [itemsChars, itemsMarks, List.append_assoc, List.cons_append,
            first _ (delimited_cons (.inl rfl) _), lexemes_comma, behind]

theorem lexemes_fieldsChars {fields : List (String × Json)}
    (each : ∀ field ∈ fields, field.2.CutsWell) {rest : List Char} (delimited : Delimited rest) :
    lexemes (fieldsChars fields ++ rest) = fieldsMarks fields ++ lexemes rest := by
  induction fields with
  | nil => rfl
  | cons field others ih =>
      obtain ⟨name, value⟩ := field
      have first : value.CutsWell := each (name, value) List.mem_cons_self
      have behind := ih fun other member => each other (List.mem_cons_of_mem _ member)
      cases others with
      | nil =>
          simp only [fieldsChars, fieldsMarks, List.append_assoc, List.cons_append, lexemes_quoted,
            lexemes_colon, first rest delimited]
      | cons next others =>
          simp only [fieldsChars, fieldsMarks, List.append_assoc, List.cons_append, lexemes_quoted,
            lexemes_colon, first _ (delimited_cons (.inl rfl) _), lexemes_comma, behind]

/-- The one lexeme of a double. -/
theorem exists_marks_float (x : Float) :
    ∃ l, (Json.float x).marks = [l] ∧ (Json.float x).CutsWell ∧
      (l = .null ∨ ∃ v, l = .number v ∧ ∀ j, v = .ok j → ∃ y, j = .float y) := by
  obtain ⟨l, cut, kind⟩ := lexemes_float x
  have alone : (Json.float x).marks = [l] := by
    have whole := cut [] (by simp [Delimited])
    rwa [List.append_nil, lexemes] at whole
  refine ⟨l, alone, fun rest delimited => ?_, kind⟩
  rw [cut rest delimited, alone, List.singleton_append]

/-- **The text of a value is cut into its lexemes.** -/
theorem lexemes_chars {j : Json} (bounded : j.Bounded) : j.CutsWell := by
  induction bounded with
  | null => exact fun rest _ => lexemes_of_part rfl rfl
  | bool b => cases b <;> exact fun rest _ => lexemes_of_part rfl rfl
  | integer lower upper => exact fun rest delimited => lexemes_integer lower upper delimited
  | float x =>
      obtain ⟨_, -, cut, -⟩ := exists_marks_float x
      exact cut
  | string s => exact fun rest _ => lexemes_quoted s rest
  | array _ each =>
      intro rest _
      simp only [chars, marks, List.cons_append, List.append_assoc, List.nil_append,
        lexemes_openArray, lexemes_itemsChars each (delimited_cons (.inr (.inl rfl)) _),
        lexemes_closeArray]
  | object _ each =>
      intro rest _
      simp only [chars, marks, List.cons_append, List.append_assoc, List.nil_append,
        lexemes_openObject, lexemes_fieldsChars each (delimited_cons (.inr (.inr rfl)) _),
        lexemes_closeObject]

theorem lexemes_eq_marks {j : Json} (bounded : j.Bounded) : lexemes j.chars = j.marks := by
  have whole := lexemes_chars bounded [] (by simp [Delimited])
  simpa [lexemes] using whole

/-! ## The document -/

mutual

/-- A value as a document: a double is what its text is read as, and everything else can be
read. -/
def document : Json → Document
  | .null => .null
  | .bool b => .bool b
  | .integer n => .number (.ok (.integer n))
  | .float x => (Document.ofText (Json.float x).chars).1
  | .string s => .string (.ok s)
  | .array items => .array (documents items) none
  | .object fields => .object (fieldDocuments fields) none

def documents : List Json → List Document
  | [] => []
  | item :: rest => item.document :: documents rest

def fieldDocuments : List (String × Json) → List (Name × Document)
  | [] => []
  | (name, value) :: rest => (.ok name, value.document) :: fieldDocuments rest

end

theorem fieldDocuments_append (front back : List (String × Json)) :
    fieldDocuments (front ++ back) = fieldDocuments front ++ fieldDocuments back := by
  induction front with
  | nil => rfl
  | cons field front ih => simp [fieldDocuments, ih]

/-- **A double is read as null or as a number**, which is a double again if it can be read. -/
theorem float_cases (x : Float) :
    ((Json.float x).marks = [.null] ∧ (Json.float x).document = .null) ∨
      ∃ v, (Json.float x).marks = [.number v] ∧ (Json.float x).document = .number v ∧
        ∀ j, v = .ok j → ∃ y, j = .float y := by
  obtain ⟨l, alone, -, rfl | ⟨v, rfl, double⟩⟩ := exists_marks_float x
  · refine .inl ⟨alone, ?_⟩
    rw [marks] at alone
    rw [document, Document.ofText, alone]
    rfl
  · refine .inr ⟨v, alone, ?_, double⟩
    rw [marks] at alone
    rw [document, Document.ofText, alone]
    rfl

/-- The lexemes of `j` move a cursor over its document. -/
def PassesOver (j : Json) : Prop :=
  ∀ outer, j.marks.foldl Cursor.step (.atValue outer) = .afterValue j.document outer

/-- A value is the first item of an array as it is a later one. -/
theorem foldl_step_atFirstItem (j : Json) (outer : List Frame) :
    j.marks.foldl Cursor.step (.atFirstItem outer) =
      j.marks.foldl Cursor.step (.atValue (.array [] :: outer)) := by
  cases j with
  | float x =>
      rcases float_cases x with ⟨alone, -⟩ | ⟨v, alone, -⟩
      · rw [alone]
        rfl
      · rw [alone]
        rfl
  | _ => rfl

theorem foldl_step_itemsMarks (others : List Json) :
    ∀ (item : Json) (before : List Document) (outer : List Frame),
      (∀ j ∈ item :: others, j.PassesOver) →
      (itemsMarks (item :: others) ++ [Lexeme.closeArray]).foldl Cursor.step
          (.atValue (.array before :: outer)) =
        .afterValue (.array (before.reverse ++ documents (item :: others)) none) outer := by
  -- On the items still to come: those read already are in the frame, last first.
  induction others with
  | nil =>
      intro item before outer each
      rw [itemsMarks, List.foldl_append, each item List.mem_cons_self]
      simp [Cursor.step, Frame.close, documents]
  | cons next others ih =>
      intro item before outer each
      have behind := ih next (item.document :: before) outer
        fun j member => each j (List.mem_cons_of_mem _ member)
      have text : itemsMarks (item :: next :: others) ++ [.closeArray] =
          item.marks ++ .comma :: (itemsMarks (next :: others) ++ [.closeArray]) := by
        simp [itemsMarks]
      rw [text, List.foldl_append, each item List.mem_cons_self, List.foldl_cons, Cursor.step,
        behind]
      simp [documents]

theorem foldl_step_fieldsMarks (others : List (String × Json)) :
    ∀ (field : String × Json) (before : List (Name × Document)) (outer : List Frame),
      (∀ f ∈ field :: others, f.2.PassesOver) →
      (fieldsMarks (field :: others) ++ [Lexeme.closeObject]).foldl Cursor.step
          (.atName before outer) =
        .afterValue (.object (before.reverse ++ fieldDocuments (field :: others)) none) outer := by
  induction others with
  | nil =>
      rintro ⟨name, value⟩ before outer each
      have passes : value.PassesOver := each (name, value) List.mem_cons_self
      simp only [fieldsMarks, List.cons_append, List.foldl_cons, List.foldl_append, Cursor.step,
        passes (.object before (.ok name) :: outer)]
      simp [Frame.close, fieldDocuments]
  | cons next others ih =>
      rintro ⟨name, value⟩ before outer each
      have passes : value.PassesOver := each (name, value) List.mem_cons_self
      have behind := ih next ((.ok name, value.document) :: before) outer
        fun f member => each f (List.mem_cons_of_mem _ member)
      have text : fieldsMarks ((name, value) :: next :: others) ++ [.closeObject] =
          .string (.ok name) :: .colon ::
            (value.marks ++ .comma :: (fieldsMarks (next :: others) ++ [.closeObject])) := by
        simp [fieldsMarks]
      rw [text, List.foldl_cons, Cursor.step, List.foldl_cons, Cursor.step, List.foldl_append,
        passes, List.foldl_cons, Cursor.step, behind]
      simp [fieldDocuments]

theorem foldl_step_marks {j : Json} (bounded : j.Bounded) : j.PassesOver := by
  induction bounded with
  | float x =>
      intro outer
      rcases float_cases x with ⟨alone, null⟩ | ⟨v, alone, number, -⟩
      · rw [alone, null]
        rfl
      · rw [alone, number]
        rfl
  | @array items _ each =>
      intro outer
      cases items with
      | nil => rfl
      | cons item others =>
          have first : (itemsMarks (item :: others) ++ [Lexeme.closeArray]).foldl Cursor.step
              (.atFirstItem outer) =
                (itemsMarks (item :: others) ++ [Lexeme.closeArray]).foldl Cursor.step
                  (.atValue (.array [] :: outer)) := by
            cases others <;>
              simp only [itemsMarks, List.append_assoc, List.foldl_append, foldl_step_atFirstItem]
          rw [marks, List.cons_append, List.foldl_cons, Cursor.step, Cursor.stepValue, first,
            foldl_step_itemsMarks others item [] outer each]
          rfl
  | @object fields _ each =>
      intro outer
      cases fields with
      | nil => rfl
      | cons field others =>
          rw [marks, List.cons_append, List.foldl_cons, Cursor.step, Cursor.stepValue,
            foldl_step_fieldsMarks others field [] outer each]
          rfl
  | _ => exact fun _ => rfl

/-- **The text of a value is read as its document**, with nothing wrong in it or behind it. -/
theorem ofText_chars {j : Json} (bounded : j.Bounded) :
    Document.ofText j.chars = (j.document, none) := by
  simp only [Document.ofText, lexemes_eq_marks bounded, foldl_step_marks bounded []]
  rfl

/-- A text is read by reading the value's document. -/
theorem decode_compact {α : Type} (read : Nat → Document → Except Fault α) {j : Json}
    (bounded : j.Bounded) : decode read j.compact = read nestingLimit j.document := by
  rw [decode, compact, String.toList_ofList, ofText_chars bounded]
  dsimp only
  cases read nestingLimit j.document <;> rfl

/-! ## Room -/

mutual

/-- How many containers are open at once in the text of a value. -/
def nesting : Json → Nat
  | .array items => 1 + itemsNesting items
  | .object fields => 1 + fieldsNesting fields
  | _ => 0

def itemsNesting : List Json → Nat
  | [] => 0
  | item :: rest => max item.nesting (itemsNesting rest)

def fieldsNesting : List (String × Json) → Nat
  | [] => 0
  | (_, value) :: rest => max value.nesting (fieldsNesting rest)

end

/-- How many containers are open behind a lexeme, `level` before it. -/
def Lexeme.levelBehind (level : Nat) : Lexeme → Nat
  | .openArray => level + 1
  | .openObject => level + 1
  | .closeArray => level - 1
  | .closeObject => level - 1
  | _ => level

/-- The most containers open at once in a run of lexemes, `level` of them from before. -/
def mostOpen (level : Nat) : List Lexeme → Nat
  | [] => level
  | l :: rest => max level (mostOpen (l.levelBehind level) rest)

theorem le_mostOpen (level : Nat) (ls : List Lexeme) : level ≤ mostOpen level ls := by
  cases ls with
  | nil => exact Nat.le_refl level
  | cons l rest => exact Nat.le_max_left ..

theorem mostOpen_comma (level : Nat) (rest : List Lexeme) :
    mostOpen level (.comma :: rest) = mostOpen level rest :=
  Nat.max_eq_right (le_mostOpen level rest)

theorem mostOpen_name (level : Nat) (text : Except Fault String) (rest : List Lexeme) :
    mostOpen level (.string text :: .colon :: rest) = mostOpen level rest := by
  have colon : mostOpen level (.colon :: rest) = mostOpen level rest :=
    Nat.max_eq_right (le_mostOpen level rest)
  exact (Nat.max_eq_right (le_mostOpen level (.colon :: rest))).trans colon

/-- In the lexemes of `j` there are as many containers open at once as `j` nests, and they
are closed again behind it. -/
def OpensAndCloses (j : Json) : Prop :=
  ∀ level rest, mostOpen level (j.marks ++ rest) = max (level + j.nesting) (mostOpen level rest)

theorem mostOpen_itemsMarks {items : List Json} (each : ∀ item ∈ items, item.OpensAndCloses)
    (level : Nat) (rest : List Lexeme) :
    mostOpen level (itemsMarks items ++ rest) =
      max (level + itemsNesting items) (mostOpen level rest) := by
  induction items with
  | nil => exact (Nat.max_eq_right (le_mostOpen level rest)).symm
  | cons item others ih =>
      have first := each item List.mem_cons_self level
      have behind := ih fun other member => each other (List.mem_cons_of_mem _ member)
      cases others with
      | nil =>
          rw [itemsMarks, first, itemsNesting, itemsNesting]
          omega
      | cons next others =>
          have marks : itemsMarks (item :: next :: others) ++ rest =
              item.marks ++ .comma :: (itemsMarks (next :: others) ++ rest) := by
            simp [itemsMarks]
          rw [marks, first, mostOpen_comma, behind, itemsNesting.eq_2 item]
          omega

theorem mostOpen_fieldsMarks {fields : List (String × Json)}
    (each : ∀ field ∈ fields, field.2.OpensAndCloses) (level : Nat) (rest : List Lexeme) :
    mostOpen level (fieldsMarks fields ++ rest) =
      max (level + fieldsNesting fields) (mostOpen level rest) := by
  induction fields with
  | nil => exact (Nat.max_eq_right (le_mostOpen level rest)).symm
  | cons field others ih =>
      obtain ⟨name, value⟩ := field
      have first : ∀ rest, mostOpen level (value.marks ++ rest) =
          max (level + value.nesting) (mostOpen level rest) :=
        each (name, value) List.mem_cons_self level
      have behind := ih fun other member => each other (List.mem_cons_of_mem _ member)
      cases others with
      | nil =>
          rw [fieldsMarks, List.cons_append, List.cons_append, mostOpen_name, first, fieldsNesting,
            fieldsNesting]
          omega
      | cons next others =>
          have marks : fieldsMarks ((name, value) :: next :: others) ++ rest =
              .string (.ok name) :: .colon ::
                (value.marks ++ .comma :: (fieldsMarks (next :: others) ++ rest)) := by
            simp [fieldsMarks]
          rw [marks, mostOpen_name, first, mostOpen_comma, behind, fieldsNesting.eq_2 name]
          omega

/-- **A value nests as many containers as its text has open at once.** -/
theorem mostOpen_lexemes_chars {j : Json} (bounded : j.Bounded) :
    mostOpen 0 (lexemes j.chars) = j.nesting := by
  have opens : j.OpensAndCloses := by
    induction bounded with
    | float x =>
        intro level rest
        rcases float_cases x with ⟨alone, -⟩ | ⟨v, alone, -⟩
        · rw [alone]
          rfl
        · rw [alone]
          rfl
    | array _ each =>
        intro level rest
        rw [marks, nesting, List.append_assoc, List.cons_append, mostOpen, Lexeme.levelBehind,
          mostOpen_itemsMarks each, List.singleton_append, mostOpen, Lexeme.levelBehind]
        simp only [Nat.add_sub_cancel]
        omega
    | object _ each =>
        intro level rest
        rw [marks, nesting, List.append_assoc, List.cons_append, mostOpen, Lexeme.levelBehind,
          mostOpen_fieldsMarks each, List.singleton_append, mostOpen, Lexeme.levelBehind]
        simp only [Nat.add_sub_cancel]
        omega
    | _ => exact fun _ _ => rfl
  have whole := opens 0 []
  rw [List.append_nil, ← lexemes_eq_marks bounded] at whole
  simpa [mostOpen] using whole

theorem bind_eq_ok_iff {α β : Type} {x : Except Fault α} {f : α → Except Fault β} {b : β} :
    (x >>= f) = .ok b ↔ ∃ a, x = .ok a ∧ f a = .ok b := by
  cases x <;> simp [bind, Except.bind]

theorem enter_eq_ok_iff {room inner : Nat} : enter room = .ok inner ↔ room = inner + 1 := by
  cases room <;> simp [enter]

/-- What needs `size` containers to be opened, if there is room for them. -/
def inRoom {α : Type} (size room : Nat) (a : α) : Except Fault α :=
  if size ≤ room then .ok a else .error .malformed

theorem inRoom_bind {α β : Type} {m n room : Nat} {a : α} {b : β} {rest : α → Except Fault β}
    (behind : rest a = inRoom n room b) : (inRoom m room a >>= rest) = inRoom (max m n) room b := by
  unfold inRoom at behind ⊢
  by_cases here : m ≤ room
  · have both : max m n ≤ room ↔ n ≤ room := by omega
    simp only [if_pos here, bind, Except.bind, behind, both]
  · rw [if_neg here, if_neg fun both => here (Nat.max_le.mp both).1]
    rfl

/-- What only goes on takes no room. -/
theorem inRoom_bind_ok {α β : Type} {n room : Nat} {a : α} {b : β} {rest : α → Except Fault β}
    (finished : rest a = .ok b) : (inRoom n room a >>= rest) = inRoom n room b := by
  unfold inRoom
  split
  · exact finished
  · rfl

/-- A container takes one more than what is in it. -/
theorem enter_bind {β : Type} {n room : Nat} {b : β} {rest : Nat → Except Fault β}
    (inside : ∀ inner, rest inner = inRoom n inner b) :
    (enter room >>= rest) = inRoom (1 + n) room b := by
  unfold inRoom at inside ⊢
  cases room with
  | zero =>
      rw [if_neg (by omega)]
      rfl
  | succ room =>
      have shift : 1 + n ≤ room + 1 ↔ n ≤ room := by omega
      simp only [enter, bind, Except.bind, inside, shift]

end Criteria.Json
