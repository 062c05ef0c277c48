/-
# Criteria.Proofs.NodeDocuments -- condition trees read off their own documents

The JSON of a tree keeps everything but three things: the class of a key, which the predicate
decides again when the text of the key is read; that an instant was no string; and what a double
loses when its text is read.  `Node.reloadedAll` is what is left of a tree then.

A value is read off its document as what comes back of it (`Value.ofDocument_toJson`), for the
forms of a value are told apart (`Value.ofJson?_toJson`); the text of a path with names is read
as that path (`Path.parse_text_of_names`).  From this a list of nodes is read back exactly when
all its keys and doubles can be read and there is room for its containers (`Node.readBack`).
-/
import Criteria.Node.Json
import Criteria.Proofs.Forest
import Criteria.Proofs.JsonText
import Mathlib.Data.List.TakeWhile

namespace Criteria

set_option autoImplicit false

open Json (Document Name)

/-! ## Values -/

/-- Induction over a value, by the items of an array. -/
theorem value_induction {motive : Value → Prop} (scalar : ∀ v, v.kind ≠ .array → motive v)
    (array : ∀ items, (∀ v ∈ items, motive v) → motive (.array items)) : ∀ v, motive v
  | .array items => array items fun v _ => value_induction scalar array v
  | .null => scalar _ nofun
  | .bool _ => scalar _ nofun
  | .int _ => scalar _ nofun
  | .float _ => scalar _ nofun
  | .string _ => scalar _ nofun
  | .enum _ => scalar _ nofun
  | .date _ => scalar _ nofun

namespace Value

/-- Nothing of a scalar kind is in the value. -/
inductive Without (k : Kind) : Value → Prop where
  | scalar {v : Value} : v.kind ≠ .array → v.kind ≠ k → Without k v
  | array {items : List Value} : (∀ v ∈ items, Without k v) → Without k (.array items)

/-- What the text of a double is read as: null when the double is not finite, and else a double
again, unless that is too large to be read. -/
def reread (x : Float) : Except Json.Fault Value :=
  Json.decode ofDocument (Json.float x).compact

/-- All doubles in the value can be read again. -/
inductive Legible : Value → Prop where
  | scalar {v : Value} : v.kind ≠ .array → v.kind ≠ .float → Legible v
  | float {x : Float} {v : Value} : reread x = .ok v → Legible (.float x)
  | array {items : List Value} : (∀ v ∈ items, Legible v) → Legible (.array items)

theorem Without.items {k : Kind} {items : List Value} (without : Without k (.array items)) :
    ∀ v ∈ items, Without k v := by
  cases without with
  | scalar single _ => exact absurd rfl single
  | array each => exact each

theorem Legible.items {items : List Value} (legible : Legible (.array items)) :
    ∀ v ∈ items, Legible v := by
  cases legible with
  | scalar single _ => exact absurd rfl single
  | array each => exact each

theorem Without.legible {v : Value} (floatless : v.Without .float) : v.Legible := by
  induction floatless with
  | scalar single other => exact .scalar single other
  | array _ each => exact .array each

mutual

/-- The value that comes back: an instant is then the string of its timestamp, and a double what
its text is read as. -/
def reloaded : Value → Value
  | .date i => .string i.timestamp
  | .float x => (reread x).toOption.getD .null
  | .array items => .array (reloadedItems items)
  | v => v

def reloadedItems : List Value → List Value
  | [] => []
  | v :: rest => v.reloaded :: reloadedItems rest

end

theorem toJsonItems_eq_map (items : List Value) : toJsonItems items = items.map toJson := by
  induction items with
  | nil => rfl
  | cons v rest ih => rw [toJsonItems, ih, List.map_cons]

theorem reloadedItems_eq_map (items : List Value) :
    reloadedItems items = items.map reloaded := by
  induction items with
  | nil => rfl
  | cons v rest ih => rw [reloadedItems, ih, List.map_cons]

/-- A double is read as null or as a double, or it cannot be read. -/
theorem reread_cases (x : Float) :
    (reread x = .ok .null ∧ (Json.float x).document = .null) ∨
      (∃ y, reread x = .ok (.float y) ∧ (Json.float x).document = .number (.ok (.float y))) ∨
        ∃ f, reread x = .error f ∧ (Json.float x).document = .number (.error f) := by
  rw [reread, Json.decode_compact _ (.float x)]
  rcases Json.float_cases x with ⟨-, null⟩ | ⟨v, -, number, double⟩
  · rw [null]
    exact .inl ⟨rfl, rfl⟩
  · rw [number]
    cases v with
    | error f => exact .inr (.inr ⟨f, rfl, rfl⟩)
    | ok j =>
        obtain ⟨y, rfl⟩ := double j rfl
        exact .inr (.inl ⟨y, rfl, rfl⟩)

/-- A second time nothing changes but doubles. -/
theorem reloaded_reloaded {v : Value} (floatless : v.Without .float) :
    v.reloaded.reloaded = v.reloaded := by
  induction floatless with
  | @scalar v single other =>
      cases v with
      | array items => exact absurd rfl single
      | float x => exact absurd rfl other
      | _ => rfl
  | array _ each =>
      rw [reloaded, reloaded, reloadedItems_eq_map, reloadedItems_eq_map, List.map_map]
      exact congrArg Value.array (List.map_congr_left each)

/-- Only instants and doubles come back as something else. -/
theorem reloaded_eq_self {v : Value} (dateless : v.Without .date) (floatless : v.Without .float) :
    v.reloaded = v := by
  induction dateless with
  | @scalar v single other =>
      cases v with
      | array items => exact absurd rfl single
      | date i => exact absurd rfl other
      | float x =>
          cases floatless with
          | scalar _ other => exact absurd rfl other
      | _ => rfl
  | array _ each =>
      rw [reloaded, reloadedItems_eq_map, List.map_congr_left fun v member =>
        each v member (floatless.items v member), List.map_id']

theorem Without.reloaded {v : Value} (floatless : v.Without .float) :
    v.reloaded.Without .float := by
  induction floatless with
  | @scalar v single other =>
      cases v with
      | array items => exact absurd rfl single
      | date i => exact .scalar nofun nofun
      | float x => exact absurd rfl other
      | _ => exact .scalar single other
  | array _ each =>
      rw [Value.reloaded, reloadedItems_eq_map]
      exact .array (by simpa using each)

/-- There are no instants in what comes back. -/
theorem dateless_reloaded (v : Value) : v.reloaded.Without .date := by
  induction v using value_induction with
  | scalar v single =>
      cases v with
      | array items => exact absurd rfl single
      | float x =>
          rw [reloaded]
          rcases reread_cases x with ⟨read, -⟩ | ⟨y, read, -⟩ | ⟨f, read, -⟩ <;> rw [read] <;>
            exact .scalar nofun nofun
      | _ => exact .scalar nofun nofun
  | array items each =>
      rw [reloaded, reloadedItems_eq_map]
      exact .array (by simpa using each)

theorem toInt_bounds (n : Int64) : -Nat.pow 2 63 ≤ n.toInt ∧ n.toInt < Nat.pow 2 63 :=
  ⟨n.le_toInt, n.toInt_lt⟩

theorem bounded_toJson (v : Value) : v.toJson.Bounded := by
  induction v using value_induction with
  | scalar v single =>
      cases v with
      | array items => exact absurd rfl single
      | int n =>
          obtain ⟨lower, upper⟩ := toInt_bounds n
          have wider : Nat.pow 2 63 ≤ Nat.pow 2 64 := by decide
          exact .integer lower (by omega)
      | enum name => exact .object (by simp [Json.Bounded.string])
      | _ => constructor
  | array items each =>
      rw [toJson, toJsonItems_eq_map]
      exact .array (by simpa using each)

/-- What comes back nests as many containers. -/
theorem nesting_toJson_reloaded (v : Value) : v.reloaded.toJson.nesting = v.toJson.nesting := by
  induction v using value_induction with
  | scalar v single =>
      cases v with
      | array items => exact absurd rfl single
      | float x =>
          rw [reloaded]
          rcases reread_cases x with ⟨read, -⟩ | ⟨y, read, -⟩ | ⟨f, read, -⟩ <;> rw [read] <;> rfl
      | _ => rfl
  | array items each =>
      have same : Json.itemsNesting ((items.map reloaded).map toJson) =
          Json.itemsNesting (items.map toJson) := by
        induction items with
        | nil => rfl
        | cons v rest ih =>
            obtain ⟨first, behind⟩ := List.forall_mem_cons.mp each
            simp only [List.map_cons, Json.itemsNesting, first, ih behind]
      rw [reloaded, toJson, toJson, toJsonItems_eq_map, toJsonItems_eq_map, reloadedItems_eq_map,
        Json.nesting, Json.nesting, same]

theorem ofInteger_toInt (n : Int64) : ofInteger n.toInt = .int n := by
  rw [ofInteger, if_pos (toInt_bounds n), Int64.ofInt_toInt]

theorem ofJsonItems?_toJsonItems {items : List Value}
    (each : ∀ v ∈ items, ofJson? v.toJson = some v) :
    ofJsonItems? (toJsonItems items) = some items := by
  induction items with
  | nil => rfl
  | cons v rest ih =>
      have behind := ih fun w member => each w (List.mem_cons_of_mem _ member)
      rw [toJsonItems, ofJsonItems?, each v List.mem_cons_self, behind]

/-- **The forms of a value are told apart**, but for instants. -/
theorem ofJson?_toJson {v : Value} (dateless : v.Without .date) : ofJson? v.toJson = some v := by
  induction dateless with
  | @scalar v single other =>
      cases v with
      | array items => exact absurd rfl single
      | date i => exact absurd rfl other
      | int n => exact congrArg some (ofInteger_toInt n)
      | _ => rfl
  | array _ each =>
      rw [toJson, ofJson?, ofJsonItems?_toJsonItems each]
      rfl

/-- The JSON of what comes back is read off the document of `v`, if its doubles can be read and
there is room for its containers. -/
def ReadsBack (v : Value) : Prop :=
  ∀ room j, v.toJson.document.toJson room = .ok j ↔
    v.Legible ∧ v.toJson.nesting ≤ room ∧ j = v.reloaded.toJson

theorem toJsonItems_documents_eq_ok_iff {items : List Value} (each : ∀ v ∈ items, v.ReadsBack)
    {room : Nat} {read : List Json} :
    Document.toJsonItems room (Json.documents (toJsonItems items)) = .ok read ↔
      (∀ v ∈ items, v.Legible) ∧ Json.itemsNesting (toJsonItems items) ≤ room ∧
        read = toJsonItems (reloadedItems items) := by
  induction items generalizing read with
  | nil =>
      simp [toJsonItems, reloadedItems, Json.documents, Document.toJsonItems, Json.itemsNesting,
        eq_comm]
  | cons v rest ih =>
      obtain ⟨first, others⟩ := List.forall_mem_cons.mp each
      rw [toJsonItems, reloadedItems, toJsonItems, Json.documents, Document.toJsonItems,
        Json.itemsNesting, List.forall_mem_cons, Nat.max_le]
      simp only [Json.bind_eq_ok_iff, first room _, ih others, pure, Except.pure, Except.ok.injEq]
      constructor
      · rintro ⟨_, ⟨own, here, rfl⟩, _, ⟨behind, there, rfl⟩, rfl⟩
        exact ⟨⟨own, behind⟩, ⟨here, there⟩, rfl⟩
      · rintro ⟨⟨own, behind⟩, ⟨here, there⟩, rfl⟩
        exact ⟨_, ⟨own, here, rfl⟩, _, ⟨behind, there, rfl⟩, rfl⟩

theorem readsBack_flat {v : Value} (legible : v.Legible) (flat : v.toJson.nesting = 0)
    (read : ∀ room, v.toJson.document.toJson room = .ok v.reloaded.toJson) : v.ReadsBack := by
  intro room j
  rw [read room, flat]
  simp [legible, eq_comm]

theorem readsBack_float (x : Float) : (float x).ReadsBack := by
  intro room j
  rw [toJson, reloaded]
  have legible : Legible (.float x) ↔ ∃ v, reread x = .ok v := by
    constructor
    · rintro (⟨-, other⟩ | read)
      · exact absurd rfl other
      · exact ⟨_, read⟩
    · rintro ⟨v, read⟩
      exact .float read
  rw [legible]
  rcases reread_cases x with ⟨read, null⟩ | ⟨y, read, number⟩ | ⟨f, read, number⟩
  · rw [read, null]
    simp [Document.toJson, Json.nesting, Except.toOption, toJson, eq_comm]
  · rw [read, number]
    simp [Document.toJson, Json.nesting, Except.toOption, toJson, eq_comm]
  · rw [read, number]
    simp [Document.toJson]

/-- **A value is read off its document** exactly when its doubles can be read and there is room
for its containers. -/
theorem readsBack (v : Value) : v.ReadsBack := by
  induction v using value_induction with
  | scalar v single =>
      cases v with
      | array items => exact absurd rfl single
      | float x => exact readsBack_float x
      | enum name =>
          intro room j
          have legible : Legible (.enum name) := .scalar (by rintro ⟨⟩) (by rintro ⟨⟩)
          cases room <;>
            simp [toJson, reloaded, Json.document, Json.fieldDocuments, Document.toJson,
              Document.toJsonFields, Json.enter, Json.reachEnd, Json.nesting, Json.fieldsNesting,
              bind, Except.bind, pure, Except.pure, Except.map, legible, eq_comm]
      | _ => exact readsBack_flat (.scalar single (by rintro ⟨⟩)) rfl fun _ => rfl
  | array items each =>
      intro room j
      have legible : Legible (.array items) ↔ ∀ v ∈ items, v.Legible := ⟨.items, .array⟩
      rw [legible, toJson, reloaded, toJson, Json.document, Document.toJson, Json.nesting]
      simp only [Json.bind_eq_ok_iff, Json.enter_eq_ok_iff,
        toJsonItems_documents_eq_ok_iff each, Json.reachEnd, pure, Except.pure, Except.ok.injEq]
      constructor
      · rintro ⟨inner, rfl, _, ⟨doubles, fits, rfl⟩, _, _, rfl⟩
        exact ⟨doubles, by omega, rfl⟩
      · rintro ⟨doubles, fits, rfl⟩
        exact ⟨room - 1, by omega, _, ⟨doubles, by omega, rfl⟩, (), trivial, rfl⟩

theorem ofDocument_toJson {v w : Value} {room : Nat} :
    ofDocument room v.toJson.document = .ok w ↔
      v.Legible ∧ v.toJson.nesting ≤ room ∧ w = v.reloaded := by
  rw [ofDocument, Json.bind_eq_ok_iff]
  simp only [v.readsBack room _]
  constructor
  · rintro ⟨_, ⟨doubles, fits, rfl⟩, formed⟩
    rw [ofJson?_toJson v.dateless_reloaded] at formed
    exact ⟨doubles, fits, (Except.ok.inj formed).symm⟩
  · rintro ⟨doubles, fits, rfl⟩
    refine ⟨_, ⟨doubles, fits, rfl⟩, ?_⟩
    rw [ofJson?_toJson v.dateless_reloaded]
    rfl

end Value

/-! ## Keys -/

namespace Path

/-- The characters of names are ASCII letters and digits, `_` and `$`. -/
theorem isNameChar_iff {c : Char} : isNameChar c = true ↔
    ('A' ≤ c ∧ c ≤ 'Z') ∨ ('a' ≤ c ∧ c ≤ 'z') ∨ ('0' ≤ c ∧ c ≤ '9') ∨ c = '_' ∨ c = '$' := by
  have upper : c.isUpper = true ↔ 'A' ≤ c ∧ c ≤ 'Z' := decide_eq_true_iff
  have lower : c.isLower = true ↔ 'a' ≤ c ∧ c ≤ 'z' :=
    (Bool.and_eq_true_iff).trans (and_congr decide_eq_true_iff decide_eq_true_iff)
  have digit : c.isDigit = true ↔ '0' ≤ c ∧ c ≤ '9' :=
    (Bool.and_eq_true_iff).trans (and_congr decide_eq_true_iff decide_eq_true_iff)
  have alpha : c.isAlpha = (c.isUpper || c.isLower) := rfl
  rw [isNameChar, Char.isAlphanum, alpha]
  simp only [Bool.or_eq_true, decide_eq_true_eq, upper, lower, digit, or_assoc]

theorem not_isBlank_of_isNameChar {c : Char} (name : isNameChar c = true) :
    Text.isBlank c = false := by
  have range : (65 ≤ c.toNat ∧ c.toNat ≤ 90) ∨ (97 ≤ c.toNat ∧ c.toNat ≤ 122) ∨
      (48 ≤ c.toNat ∧ c.toNat ≤ 57) ∨ c.toNat = 95 ∨ c.toNat = 36 := by
    rcases isNameChar_iff.mp name with upper | lower | digit | rfl | rfl
    · exact .inl upper
    · exact .inr (.inl lower)
    · exact .inr (.inr (.inl digit))
    · decide
    · decide
  simp [Text.isBlank]
  omega

theorem trim_of_shown {text : List Char} (shown : ∀ c ∈ text, Text.isBlank c = false) :
    Text.trim text = text := by
  rw [Text.trim, Text.trimStart_of_front fun c first => shown c (List.mem_of_head? first),
    Text.trimEnd_of_back fun c last => shown c (List.mem_of_getLast? last)]

theorem isNameChar_of_isName {text : List Char} (name : isName text = true) :
    ∀ c ∈ text, isNameChar c = true := by
  rw [isName, Bool.and_eq_true] at name
  exact List.all_eq_true.mp name.2

/-- A dot is in no name. -/
theorem ne_dot_of_isName {text : List Char} (name : isName text = true) :
    ∀ c ∈ text, (decide (c ≠ '.')) = true := by
  intro c member
  have nameChar := isNameChar_of_isName name c member
  refine decide_eq_true ?_
  rintro rfl
  exact absurd nameChar (by decide)

/-- **The text of a path with names is read as that path.** -/
theorem parse_text_of_names {p : Path} (fieldName : isName p.field.toList = true)
    (qualifierName : ∀ name, p.qualifier = some name → isName name.toList = true) :
    parse p.text = .ok p := by
  obtain ⟨qualifier, field⟩ := p
  have shownField : ∀ c ∈ field.toList, Text.isBlank c = false := fun c member =>
    not_isBlank_of_isNameChar (isNameChar_of_isName fieldName c member)
  cases qualifier with
  | none =>
      have undotted : field.toList.dropWhile (fun c => decide (c ≠ '.')) = [] :=
        List.dropWhile_eq_nil_iff.mpr (ne_dot_of_isName fieldName)
      simp only [parse, text, trim_of_shown shownField, undotted, if_pos fieldName,
        String.ofList_toList]
  | some name =>
      have named := qualifierName name rfl
      have shown : ∀ c ∈ name.toList ++ '.' :: field.toList, Text.isBlank c = false := by
        intro c member
        rw [List.mem_append, List.mem_cons] at member
        rcases member with inName | rfl | inField
        · exact not_isBlank_of_isNameChar (isNameChar_of_isName named c inName)
        · decide
        · exact shownField c inField
      have chars : (name ++ "." ++ field).toList = name.toList ++ '.' :: field.toList := by
        simp
      have names : (isName name.toList && isName field.toList) = true := by
        rw [named, fieldName]
        rfl
      simp only [parse, text, chars, trim_of_shown shown,
        List.takeWhile_append_of_pos (ne_dot_of_isName named),
        List.dropWhile_append_of_pos (ne_dot_of_isName named), List.takeWhile_cons,
        List.dropWhile_cons]
      simp [names]

/-- And so is the text of a path that was read. -/
theorem parse_text {s : String} {p : Path} (read : parse s = .ok p) : parse p.text = .ok p := by
  obtain ⟨fieldName, qualifierName⟩ := isName_of_parse read
  exact parse_text_of_names fieldName qualifierName

end Path

namespace Node

/-- The key can be read again: a node that is neither group nor fragment has the text of a
path. -/
def Keyed (n : Node) : Prop :=
  n.predicate = .group ∨ n.predicate = .fragment ∨ ∃ p, Path.parse n.key.text = .ok p

/-- The key that comes back, by the predicate. -/
def reloadedKey (predicate : Predicate) (key : Key) : Key :=
  match predicate with
  | .group => .none
  | .fragment => .raw key.text
  | _ =>
      match Path.parse key.text with
      | .ok p => .path p
      | .error _ => key

/-- A key that was read reads as itself from then on. -/
theorem keyFor_text {predicate : Predicate} {text : String} {key : Key}
    (read : keyFor predicate text = .ok key) : keyFor predicate key.text = .ok key := by
  have path : ∀ p, Path.parse text = .ok p → (Path.parse p.text).map Key.path = .ok (.path p) := by
    intro p parsed
    rw [Path.parse_text parsed]
    rfl
  cases predicate with
  | group =>
      cases read
      rfl
  | fragment =>
      cases read
      rfl
  | _ =>
      unfold keyFor at read ⊢
      cases parsed : Path.parse text with
      | error e =>
          rw [parsed] at read
          cases read
      | ok p =>
          rw [parsed] at read
          cases read
          exact path p parsed

/-- Reading a key succeeds for keyed nodes and gives the key that comes back. -/
theorem keyFor_eq_ok_iff {n : Node} {key : Key} :
    keyFor n.predicate n.key.text = .ok key ↔
      n.Keyed ∧ key = reloadedKey n.predicate n.key := by
  unfold keyFor Keyed reloadedKey
  cases n.predicate with
  | group => simp [eq_comm]
  | fragment => simp [eq_comm]
  | _ => cases Path.parse n.key.text <;> simp [Except.map, eq_comm]

mutual

/-- The tree that comes back. -/
def reloaded : Node → Node
  | ⟨conjunction, key, predicate, v, children⟩ =>
      ⟨conjunction, reloadedKey predicate key, predicate, v.reloaded, reloadedAll children⟩

def reloadedAll : List Node → List Node
  | [] => []
  | n :: rest => n.reloaded :: reloadedAll rest

end

theorem reloaded_eq (n : Node) :
    n.reloaded = ⟨n.conjunction, reloadedKey n.predicate n.key, n.predicate, n.value.reloaded,
      reloadedAll n.children⟩ := by
  obtain ⟨conjunction, key, predicate, v, children⟩ := n
  rfl

@[simp] theorem reloaded_predicate (n : Node) : n.reloaded.predicate = n.predicate := by
  rw [reloaded_eq]

@[simp] theorem reloaded_children (n : Node) : n.reloaded.children = reloadedAll n.children := by
  rw [reloaded_eq]

/-- What came back is keyed, and its key stays. -/
theorem Keyed.reloaded {n : Node} (keyed : n.Keyed) :
    n.reloaded.Keyed ∧ reloadedKey n.reloaded.predicate n.reloaded.key = n.reloaded.key := by
  rw [reloaded_eq]
  have read := keyFor_text (keyFor_eq_ok_iff.mpr ⟨keyed, rfl⟩)
  obtain ⟨again, same⟩ := keyFor_eq_ok_iff (n := ⟨n.conjunction, reloadedKey n.predicate n.key,
    n.predicate, n.value.reloaded, reloadedAll n.children⟩).mp read
  exact ⟨again, same.symm⟩

/-! ## Nesting -/

/-- The fields that every node has. -/
def ownFields (n : Node) : List (String × Json) :=
  [("conjunction", .string n.conjunction.name), ("key", .string n.key.text),
    ("predicate", .string n.predicate.name), ("value", n.value.toJson)]

/-- The field of the children, which only nodes with children have. -/
def childField (children : List Node) : List (String × Json) :=
  if children.isEmpty then [] else [("sub_list", .array (toJsonAll children))]

theorem toJson_eq (n : Node) : n.toJson = .object (n.ownFields ++ childField n.children) := by
  obtain ⟨conjunction, key, predicate, v, children⟩ := n
  rfl

/-- The containers open at once in that field. -/
def childNesting (children : List Node) : Nat :=
  if children.isEmpty then 0 else 1 + Json.itemsNesting (toJsonAll children)

theorem nesting_toJson (n : Node) :
    n.toJson.nesting = 1 + max n.value.toJson.nesting (childNesting n.children) := by
  rw [toJson_eq, childField, childNesting, ownFields]
  cases n.children.isEmpty <;> simp [Json.nesting, Json.fieldsNesting]

theorem bounded_toJson {n : Node} (below : ∀ j ∈ toJsonAll n.children, j.Bounded) :
    n.toJson.Bounded := by
  rw [toJson_eq]
  refine .object fun field member => ?_
  rcases List.mem_append.mp member with own | child
  · simp only [ownFields, List.mem_cons, List.not_mem_nil, or_false] at own
    rcases own with rfl | rfl | rfl | rfl
    · exact .string _
    · exact .string _
    · exact .string _
    · exact Value.bounded_toJson n.value
  · rw [childField] at child
    split at child
    · cases child
    · rw [List.mem_singleton.mp child]
      exact .array below

theorem bounded_toJsonAll (nodes : List Node) : ∀ j ∈ toJsonAll nodes, j.Bounded := by
  induction nodes using forest_induction with
  | nil => simp [toJsonAll]
  | cons n rest inner after =>
      rw [toJsonAll, List.forall_mem_cons]
      exact ⟨bounded_toJson inner, after⟩

/-! ## Reading -/

/-- The fields that every node has are read one after the other. -/
theorem readFields_ownFields (room : Nat) (n : Node) (others : List (Name × Document)) :
    readFields room .blank (Json.fieldDocuments n.ownFields ++ others) =
      (do
        let v ← Value.ofDocument room n.value.toJson.document
        readFields room
          ⟨some n.conjunction, some n.key.text, some n.predicate, some v, none⟩ others) := by
  simp [ownFields, readFields, bind, Except.bind, Draft.blank, Json.fieldDocuments, Json.document,
    Document.toVariant, Document.findVariant, Conjunction.lookup_name, Predicate.lookup_name,
    Document.toText]

/-- A list is read when its nodes are, one container further in. -/
theorem readList_array_eq_ok_iff {room : Nat} {items : List Document} {nodes : List Node} :
    readList room (.array items none) = .ok nodes ↔
      ∃ inner, room = inner + 1 ∧ readItems inner items = .ok nodes := by
  simp only [readList, Json.bind_eq_ok_iff, Json.enter_eq_ok_iff, Json.reachEnd, pure,
    Except.pure, Except.ok.injEq]
  constructor
  · rintro ⟨inner, room, read, items, _, _, rfl⟩
    exact ⟨inner, room, items⟩
  · rintro ⟨inner, room, items⟩
    exact ⟨inner, room, nodes, items, (), trivial, rfl⟩

/-- The key of the node and its doubles can be read again. -/
def Readable (n : Node) : Prop :=
  n.Keyed ∧ n.value.Legible

/-- `nodes` are read back from their documents: they are, exactly when all keys and doubles are
read and there is room. -/
def ReadBack (nodes : List Node) : Prop :=
  ∀ room read, readItems room (Json.documents (toJsonAll nodes)) = .ok read ↔
    (∀ n ∈ everyAll nodes, n.Readable) ∧ Json.itemsNesting (toJsonAll nodes) ≤ room ∧
      read = reloadedAll nodes

theorem readList_documents {children : List Node} (below : ReadBack children) {room : Nat}
    {read : List Node} :
    readList room (.array (Json.documents (toJsonAll children)) none) = .ok read ↔
      (∀ n ∈ everyAll children, n.Readable) ∧ 1 + Json.itemsNesting (toJsonAll children) ≤ room ∧
        read = reloadedAll children := by
  rw [readList_array_eq_ok_iff]
  constructor
  · rintro ⟨inner, rfl, items⟩
    obtain ⟨readable, fits, rfl⟩ := (below _ _).mp items
    exact ⟨readable, by omega, rfl⟩
  · rintro ⟨readable, fits, rfl⟩
    exact ⟨room - 1, by omega, (below _ _).mpr ⟨readable, by omega, rfl⟩⟩

/-- The children that a draft has when their field was read. -/
def readChildren (children : List Node) : Option (List Node) :=
  if children.isEmpty then none else some (reloadedAll children)

theorem getD_readChildren (children : List Node) :
    (readChildren children).getD [] = reloadedAll children := by
  cases children <;> rfl

theorem readFields_childField {children : List Node} (below : ReadBack children) {room : Nat}
    {conjunction : Option Conjunction} {key : Option String} {predicate : Option Predicate}
    {v : Option Value} {read : Draft} :
    readFields room ⟨conjunction, key, predicate, v, none⟩
        (Json.fieldDocuments (childField children)) = .ok read ↔
      (∀ n ∈ everyAll children, n.Readable) ∧ childNesting children ≤ room ∧
        read = ⟨conjunction, key, predicate, v, readChildren children⟩ := by
  -- Without children there is no field, and the draft keeps its blank.
  cases children with
  | nil =>
      simp [childField, Json.fieldDocuments, readFields, everyAll, childNesting, readChildren,
        eq_comm]
  | cons n rest =>
      have field : readFields room ⟨conjunction, key, predicate, v, none⟩
          (Json.fieldDocuments (childField (n :: rest))) = (do
            let children ← readList room (.array (Json.documents (toJsonAll (n :: rest))) none)
            return ⟨conjunction, key, predicate, v, some children⟩) := by
        simp [childField, Json.fieldDocuments, Json.document, readFields, bind, Except.bind, pure,
          Except.pure]
      rw [field, Json.bind_eq_ok_iff]
      simp only [readList_documents below, pure, Except.pure, Except.ok.injEq]
      constructor
      · rintro ⟨_, ⟨readable, fits, rfl⟩, rfl⟩
        exact ⟨readable, fits, rfl⟩
      · rintro ⟨readable, fits, rfl⟩
        exact ⟨_, ⟨readable, fits, rfl⟩, rfl⟩

theorem readFields_fields {n : Node} (below : ReadBack n.children) {room : Nat} {read : Draft} :
    readFields room .blank (Json.fieldDocuments (n.ownFields ++ childField n.children)) =
        .ok read ↔
      n.value.Legible ∧ (∀ c ∈ everyAll n.children, c.Readable) ∧
        max n.value.toJson.nesting (childNesting n.children) ≤ room ∧
        read = ⟨some n.conjunction, some n.key.text, some n.predicate, some n.value.reloaded,
          readChildren n.children⟩ := by
  rw [Json.fieldDocuments_append, readFields_ownFields, Json.bind_eq_ok_iff]
  simp only [Value.ofDocument_toJson, readFields_childField below, Nat.max_le]
  constructor
  · rintro ⟨_, ⟨doubles, here, rfl⟩, readable, there, rfl⟩
    exact ⟨doubles, readable, ⟨here, there⟩, rfl⟩
  · rintro ⟨doubles, readable, ⟨here, there⟩, rfl⟩
    exact ⟨_, ⟨doubles, here, rfl⟩, readable, there, rfl⟩

/-- A draft of all fields is finished when its key can be read. -/
theorem finish_eq_ok_iff {n m : Node} {v : Value} {children : Option (List Node)}
    {missing : Json.Mismatch} :
    Draft.finish ⟨some n.conjunction, some n.key.text, some n.predicate, some v, children⟩ missing =
        .ok m ↔
      n.Keyed ∧
        m = ⟨n.conjunction, reloadedKey n.predicate n.key, n.predicate, v, children.getD []⟩ := by
  simp only [Draft.finish, Option.getD_some]
  cases read : keyFor n.predicate n.key.text with
  | error text =>
      have unkeyed : ¬ n.Keyed := by
        intro keyed
        rw [keyFor_eq_ok_iff.mpr ⟨keyed, rfl⟩] at read
        cases read
      simp [unkeyed]
  | ok key =>
      obtain ⟨keyed, rfl⟩ := keyFor_eq_ok_iff.mp read
      simp [keyed, eq_comm]

theorem ofDocument_toJson {n m : Node} (below : ReadBack n.children) {room : Nat} :
    ofDocument room n.toJson.document = .ok m ↔
      n.Readable ∧ (∀ c ∈ everyAll n.children, c.Readable) ∧ n.toJson.nesting ≤ room ∧
        m = n.reloaded := by
  rw [nesting_toJson, toJson_eq, Json.document, ofDocument, reloaded_eq, Json.bind_eq_ok_iff]
  simp only [Json.enter_eq_ok_iff, Json.bind_eq_ok_iff, readFields_fields below, Json.reachEnd]
  constructor
  · rintro ⟨inner, rfl, _, ⟨doubles, readable, fits, rfl⟩, _, _, finished⟩
    obtain ⟨own, rfl⟩ := finish_eq_ok_iff.mp finished
    rw [getD_readChildren]
    exact ⟨⟨own, doubles⟩, readable, by omega, rfl⟩
  · rintro ⟨⟨own, doubles⟩, readable, fits, rfl⟩
    refine ⟨room - 1, by omega, _, ⟨doubles, readable, by omega, rfl⟩, (), trivial, ?_⟩
    rw [finish_eq_ok_iff, getD_readChildren]
    exact ⟨own, rfl⟩

/-- **A tree is read off its own document** when all its keys and doubles can be read and there
is room for its containers, and otherwise nothing is. -/
theorem readBack (nodes : List Node) : ReadBack nodes := by
  induction nodes using forest_induction with
  | nil =>
      intro room read
      simp [readItems, toJsonAll, Json.documents, everyAll, Json.itemsNesting, reloadedAll, eq_comm]
  | cons n rest inner after =>
      intro room read
      rw [toJsonAll, Json.documents, readItems, Json.itemsNesting, reloadedAll,
        forall_mem_everyAll_cons, Nat.max_le]
      simp only [Json.bind_eq_ok_iff, ofDocument_toJson inner, after room _, pure, Except.pure,
        Except.ok.injEq]
      constructor
      · rintro ⟨_, ⟨first, children, here, rfl⟩, _, ⟨others, there, rfl⟩, rfl⟩
        exact ⟨⟨first, children, others⟩, ⟨here, there⟩, rfl⟩
      · rintro ⟨⟨first, children, others⟩, ⟨here, there⟩, rfl⟩
        exact ⟨_, ⟨first, children, here, rfl⟩, _, ⟨others, there, rfl⟩, rfl⟩

end Node

end Criteria
