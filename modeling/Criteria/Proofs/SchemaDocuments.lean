/-
# Criteria.Proofs.SchemaDocuments -- schemas read off their own documents

What a record writes is read into its draft field after field: each field is found by the name it
was written with, and the draft does not have it yet (`fills_cons`).  The finished draft is
the record again, when there is room for its containers (`readRecord_object`); so is a list of
records, in order and with repetitions (`readArray_documents`).

A schema nests five containers at most, which is always room enough: it comes back from its text
as it was, and answers as it did (`schema_read_back`).
-/
import Criteria.Proofs.JsonText
import Criteria.Schema.Json

namespace Criteria

set_option autoImplicit false

open Json (Document Name inRoom)

/-! ## Readers of what was written -/

/-- `read` gives `a` back from the document of what is written for it, if there is room. -/
def ReadsOff {α : Type} (read : Nat → Document → Except Json.Fault α) (write : α → Json) (a : α) :
    Prop :=
  ∀ room, read room (write a).document = inRoom (write a).nesting room a

section

variable {α : Type} {read : Nat → Document → Except Json.Fault α} {write : α → Json}

theorem mapM_documents {items : List α} (each : ∀ a ∈ items, ReadsOff read write a) (room : Nat) :
    (Json.documents (items.map write)).mapM (read room) =
      inRoom (Json.itemsNesting (items.map write)) room items := by
  induction items with
  | nil => rfl
  | cons a rest ih =>
      have behind := ih fun b member => each b (List.mem_cons_of_mem _ member)
      rw [List.map_cons, Json.documents, List.mapM_cons, each a List.mem_cons_self room, behind,
        Json.itemsNesting]
      exact Json.inRoom_bind (Json.inRoom_bind_ok rfl)

/-- **A list is read item by item**, one container further in. -/
theorem readArray_documents {items : List α} (each : ∀ a ∈ items, ReadsOff read write a) :
    ReadsOff (readArray read) (fun items => .array (items.map write)) items := by
  intro room
  simp only [Json.document, readArray, mapM_documents each, Json.reachEnd, Json.nesting]
  exact Json.enter_bind fun _ => Json.inRoom_bind_ok rfl

end

namespace RecordField

variable {Draft α : Type} {fields : List (RecordField Draft)}

/-- Reading the written fields `named` makes `last` of `draft`, if there is room. -/
def Fills (fields : List (RecordField Draft)) (draft : Draft) (named : List (String × Json))
    (last : Draft) : Prop :=
  ∀ room, readNamed fields room draft (Json.fieldDocuments named) =
    inRoom (Json.fieldsNesting named) room last

theorem fills_nil (draft : Draft) : Fills fields draft [] draft :=
  fun _ => rfl

/-- A field that the draft lacks is read into it, and then the others are. -/
theorem fills_cons {field : RecordField Draft} {name : String} {j : Json}
    {rest : List (String × Json)} {draft next last : Draft}
    (found : fields.find? (·.spellings.contains name) = some field)
    (fresh : field.present draft = false)
    (value : ∀ room, field.read room j.document draft = inRoom j.nesting room next)
    (others : Fills fields next rest last) : Fills fields draft ((name, j) :: rest) last := by
  intro room
  have step : readNamed fields room draft (Json.fieldDocuments ((name, j) :: rest)) =
      (do readNamed fields room (← field.read room j.document draft) (Json.fieldDocuments rest)) := by
    simp only [Json.fieldDocuments, readNamed, bind, Except.bind]
    rw [found]
    simp only [fresh, Bool.false_eq_true, if_false]
  rw [step, value room, Json.fieldsNesting]
  exact Json.inRoom_bind (others room)

/-- **A record is the finished draft of its fields**, one container further out. -/
theorem readRecord_object {typeName : String} {blank draft : Draft} {finish : Draft → Except Nat α}
    {named : List (String × Json)} {a : α} (filled : Fills fields blank named draft)
    (finished : finish draft = .ok a) (room : Nat) :
    readRecord typeName fields blank finish room (Json.object named).document =
      inRoom (Json.object named).nesting room a := by
  simp only [Json.document, readRecord, filled _, Json.reachEnd, Json.nesting]
  refine Json.enter_bind fun _ => Json.inRoom_bind_ok ?_
  simp only [finished, bind, Except.bind]
  rfl

end RecordField

/-! ## Schemas -/

open RecordField (Fills fills_cons fills_nil readRecord_object)

theorem Column.readsOff (c : Column) : ReadsOff ofDocument toJson c := by
  have primitive : Fills fields ⟨some c.name, some c.type, none⟩ [("primitive", .bool c.primitive)]
      ⟨some c.name, some c.type, some c.primitive⟩ :=
    fills_cons rfl rfl (fun _ => rfl) (fills_nil _)
  have type : Fills fields ⟨some c.name, none, none⟩
      [("type", .string c.type.name), ("primitive", .bool c.primitive)]
      ⟨some c.name, some c.type, some c.primitive⟩ := by
    refine fills_cons rfl rfl (fun room => ?_) primitive
    simp only [Json.document, Document.toVariant, Document.findVariant, ColumnType.lookup_name,
      Except.bind, bind]
    rfl
  exact readRecord_object (fills_cons rfl rfl (fun _ => rfl) type) rfl

theorem Table.readsOff (t : Table) : ReadsOff ofDocument toJson t := by
  have each := readArray_documents fun c (_ : c ∈ t.columns) => c.readsOff
  have columns : Fills fields ⟨some t.name, none⟩
      [("columns", .array (t.columns.map Column.toJson))] ⟨some t.name, some t.columns⟩ := by
    refine fills_cons rfl rfl (fun room => ?_) (fills_nil _)
    simp only [each room]
    exact Json.inRoom_bind_ok rfl
  exact readRecord_object (fills_cons rfl rfl (fun _ => rfl) columns) rfl

theorem Schema.readsOff (s : Schema) : ReadsOff ofDocument toJson s := by
  have each := readArray_documents fun t (_ : t ∈ s.tables) => t.readsOff
  refine readRecord_object (fills_cons rfl rfl (fun room => ?_) (fills_nil (some s.tables))) rfl
  simp only [each room]
  exact Json.inRoom_bind_ok rfl

/-! ## The text of a schema -/

theorem Json.Bounded.of_map {α : Type} {write : α → Json} {items : List α}
    (each : ∀ a ∈ items, (write a).Bounded) : (Json.array (items.map write)).Bounded :=
  .array (List.forall_mem_map.mpr each)

theorem Json.itemsNesting_map_le {α : Type} {write : α → Json} {items : List α} {size : Nat}
    (each : ∀ a ∈ items, (write a).nesting ≤ size) : itemsNesting (items.map write) ≤ size := by
  induction items with
  | nil => exact Nat.zero_le size
  | cons a rest ih =>
      obtain ⟨first, behind⟩ := List.forall_mem_cons.mp each
      exact Nat.max_le.mpr ⟨first, ih behind⟩

/-- There is no number in a schema. -/
theorem Schema.bounded_toJson (s : Schema) : s.toJson.Bounded := by
  have column : ∀ c : Column, c.toJson.Bounded := by
    intro c
    refine .object ?_
    simp [Json.Bounded.string, Json.Bounded.bool]
  have table : ∀ t : Table, t.toJson.Bounded := by
    intro t
    refine .object ?_
    simp [Json.Bounded.string, Json.Bounded.of_map fun c (_ : c ∈ t.columns) => column c]
  refine .object ?_
  simp [Json.Bounded.of_map fun t (_ : t ∈ s.tables) => table t]

/-- An object in a list in an object in a list in an object. -/
theorem Schema.nesting_toJson_le (s : Schema) : s.toJson.nesting ≤ 5 := by
  have column : ∀ c : Column, c.toJson.nesting ≤ 1 := fun c => Nat.le_refl _
  have table : ∀ t : Table, t.toJson.nesting ≤ 3 := by
    intro t
    have columns := Json.itemsNesting_map_le fun c (_ : c ∈ t.columns) => column c
    simp only [Table.toJson, Json.nesting, Json.fieldsNesting]
    omega
  have tables := Json.itemsNesting_map_le fun t (_ : t ∈ s.tables) => table t
  simp only [toJson, Json.nesting, Json.fieldsNesting]
  omega

/-- **A schema is read back from its text as it was**, whatever its names are and however often
they occur; so every table is found as before, and answers as before for its columns and for every
value. -/
theorem schema_read_back (s : Schema) :
    ∃ again, Schema.parseJson s.serialize = .ok again ∧ again = s ∧
      (∀ name, again.table? name = s.table? name) ∧ again.catalog = s.catalog := by
  have room : s.toJson.nesting ≤ Json.nestingLimit := Nat.le_trans s.nesting_toJson_le (by decide)
  have read : Json.decode Schema.ofDocument s.serialize = .ok s := by
    rw [Schema.serialize, Json.decode_compact _ s.bounded_toJson, s.readsOff, inRoom, if_pos room]
  refine ⟨s, ?_, rfl, fun _ => rfl, rfl⟩
  rw [Schema.parseJson, read]

end Criteria
