/-
# Criteria.Proofs.Reloading -- condition trees written as JSON and read back

A tree that is written and read comes back as `Node.reloadedAll`, exactly when the keys that
have to be read and the doubles can be, and its text has no more containers open at once than a
reader has room for (`Node.parseAll_serialize_eq_ok_iff`).  Without doubles it stays as it is from
then on, and so does from the start what the builders make (`Node.reload_of_floatless`).
-/
import Criteria.Proofs.NodeDocuments

namespace Criteria

set_option autoImplicit false

namespace Node

/-! ## Lists of nodes -/

/-- The keys of a list of nodes can be read again, and its text has no more containers open
at once than a reader has room for. -/
def Rereadable (nodes : List Node) : Prop :=
  (∀ n ∈ everyAll nodes, n.Keyed) ∧ Json.mostOpen 0 (Json.lexemes (serialize nodes).toList) ≤ 127

theorem bounded_array (nodes : List Node) : (Json.array (toJsonAll nodes)).Bounded :=
  .array (bounded_toJsonAll nodes)

theorem mostOpen_serialize (nodes : List Node) :
    Json.mostOpen 0 (Json.lexemes (serialize nodes).toList) =
      1 + Json.itemsNesting (toJsonAll nodes) := by
  rw [serialize, Json.compact, String.toList_ofList,
    Json.mostOpen_lexemes_chars (bounded_array nodes), Json.nesting]

theorem parseAll_eq_ok_iff {text : String} {nodes : List Node} :
    parseAll text = .ok nodes ↔ Json.decode readList text = .ok nodes := by
  unfold parseAll
  cases Json.decode readList text <;> simp

theorem parseAll_eq_error {text : String} (refused : ∀ nodes, parseAll text ≠ .ok nodes) :
    ∃ f, parseAll text = .error (.json f) := by
  unfold parseAll at refused ⊢
  cases decoded : Json.decode readList text with
  | ok nodes =>
      rw [decoded] at refused
      exact absurd rfl (refused nodes)
  | error f => exact ⟨f, rfl⟩

/-- **What a list of nodes is read back as.** -/
theorem parseAll_serialize_eq_ok_iff {nodes read : List Node} :
    parseAll (serialize nodes) = .ok read ↔
      (Rereadable nodes ∧ ∀ n ∈ everyAll nodes, n.value.Legible) ∧ read = reloadedAll nodes := by
  have each : (∀ n ∈ everyAll nodes, n.Readable) ↔
      (∀ n ∈ everyAll nodes, n.Keyed) ∧ ∀ n ∈ everyAll nodes, n.value.Legible := by
    simp only [Readable, forall_and]
  rw [parseAll_eq_ok_iff, serialize, Json.decode_compact _ (bounded_array nodes), Json.document,
    readList_documents (readBack nodes), each, Rereadable, mostOpen_serialize]
  constructor
  · rintro ⟨⟨keyed, legible⟩, fits, same⟩
    exact ⟨⟨⟨keyed, fits⟩, legible⟩, same⟩
  · rintro ⟨⟨⟨keyed, fits⟩, legible⟩, same⟩
    exact ⟨⟨keyed, legible⟩, fits, same⟩

/-- Without doubles there is nothing else to be read. -/
theorem parseAll_serialize_of_floatless {nodes read : List Node}
    (floatless : ∀ n ∈ everyAll nodes, n.value.Without .float) :
    parseAll (serialize nodes) = .ok read ↔ Rereadable nodes ∧ read = reloadedAll nodes := by
  rw [parseAll_serialize_eq_ok_iff,
    and_iff_left (a := Rereadable nodes) fun n member => (floatless n member).legible]

/-- A list whose keys can be read, and which is not too deep, is read back. -/
theorem parseAll_serialize_of_keyed {nodes : List Node}
    (each : ∀ n ∈ everyAll nodes, n.value.Without .float ∧ n.Keyed)
    (fits : 1 + Json.itemsNesting (toJsonAll nodes) ≤ 127) :
    parseAll (serialize nodes) = .ok (reloadedAll nodes) := by
  rw [← mostOpen_serialize] at fits
  exact (parseAll_serialize_of_floatless fun n member => (each n member).1).mpr
    ⟨⟨fun n member => (each n member).2, fits⟩, rfl⟩

/-! ## Reading again -/

theorem everyAll_reloadedAll (nodes : List Node) :
    everyAll (reloadedAll nodes) = (everyAll nodes).map reloaded := by
  induction nodes using forest_induction with
  | nil => rfl
  | cons n rest inner after =>
      have below : everyAll n.reloaded.children = (everyAll n.children).map reloaded := by
        rw [reloaded_eq, inner]
      rw [reloadedAll, everyAll_cons, below, after, everyAll_cons, List.map_cons, List.map_append]

theorem itemsNesting_reloadedAll (nodes : List Node) :
    Json.itemsNesting (toJsonAll (reloadedAll nodes)) = Json.itemsNesting (toJsonAll nodes) := by
  induction nodes using forest_induction with
  | nil => rfl
  | cons n rest inner after =>
      have children : childNesting n.reloaded.children = childNesting n.children := by
        have some_ : (reloadedAll n.children).isEmpty = n.children.isEmpty := by
          cases n.children <;> rfl
        rw [reloaded_eq, childNesting, childNesting, some_, inner]
      have value : n.reloaded.value.toJson.nesting = n.value.toJson.nesting := by
        rw [reloaded_eq, Value.nesting_toJson_reloaded]
      rw [reloadedAll, toJsonAll, toJsonAll, Json.itemsNesting, Json.itemsNesting, after,
        nesting_toJson, nesting_toJson, children, value]

/-- A list comes back as itself when its keys and values do. -/
theorem reloadedAll_eq_self (nodes : List Node)
    (same : ∀ n ∈ everyAll nodes, reloadedKey n.predicate n.key = n.key ∧
      n.value.reloaded = n.value) : reloadedAll nodes = nodes := by
  induction nodes using forest_induction with
  | nil => rfl
  | cons n rest inner after =>
      obtain ⟨⟨key, value⟩, below, behind⟩ := forall_mem_everyAll_cons.mp same
      rw [reloadedAll, reloaded_eq, key, value, inner below, after behind]
      cases n
      rfl

theorem floatless_reloadedAll {nodes : List Node}
    (floatless : ∀ n ∈ everyAll nodes, n.value.Without .float) :
    ∀ n ∈ everyAll (reloadedAll nodes), n.value.Without .float := by
  rw [everyAll_reloadedAll, List.forall_mem_map]
  intro n member
  rw [reloaded_eq]
  exact (floatless n member).reloaded

/-- **What came back comes back as itself.** -/
theorem parseAll_serialize_again {nodes back : List Node}
    (floatless : ∀ n ∈ everyAll nodes, n.value.Without .float)
    (came : parseAll (serialize nodes) = .ok back) : parseAll (serialize back) = .ok back := by
  obtain ⟨⟨keyed, fits⟩, rfl⟩ := (parseAll_serialize_of_floatless floatless).mp came
  -- The keys are keyed still, the text nests as before, and nothing is left to change.
  refine (parseAll_serialize_of_floatless (floatless_reloadedAll floatless)).mpr
    ⟨⟨?_, ?_⟩, (reloadedAll_eq_self _ ?_).symm⟩
  · rw [everyAll_reloadedAll, List.forall_mem_map]
    exact fun n member => (keyed n member).reloaded.1
  · rw [mostOpen_serialize, itemsNesting_reloadedAll, ← mostOpen_serialize]
    exact fits
  · rw [everyAll_reloadedAll, List.forall_mem_map]
    refine fun n member => ⟨(keyed n member).reloaded.2, ?_⟩
    rw [reloaded_eq, Value.reloaded_reloaded (floatless n member)]

/-! ## Nodes that were built -/

/-- The builders made the node. -/
inductive Built : Node → Prop where
  | compare {op : Comparison} {key : String} {v : Value} {n : Node} :
      Node.compare op key v = .ok n → Built n
  | member {negated : Bool} {key : String} {items : List Value} {n : Node} :
      Node.member negated key items = .ok n → Built n
  | nullCheck {negated : Bool} {key : String} {n : Node} :
      Node.nullCheck negated key = .ok n → Built n
  | fragment (sql : String) (v : Value) : Built (Node.fragment sql v)
  | group {children : List Node} : (∀ c ∈ children, Built c) → Built (Node.group children)
  | joined {n : Node} (conjunction : Conjunction) : Built n → Built (n.joined conjunction)

/-- The key can be read again, and as itself. -/
def KeepsKey (n : Node) : Prop :=
  n.Keyed ∧ reloadedKey n.predicate n.key = n.key

theorem keepsKey_of_ofKey {key : String} {predicate : Predicate} {v : Value} {n : Node}
    (made : ofKey key predicate v = .ok n) (group : predicate ≠ .group)
    (fragment : predicate ≠ .fragment) : ∀ m ∈ n.every, m.KeepsKey := by
  unfold ofKey at made
  cases read : Path.parse key with
  | error text =>
      rw [read] at made
      cases made
  | ok path =>
      rw [read] at made
      cases made
      have again : Path.parse (Key.path path).text = .ok path := Path.parse_text read
      intro m member
      obtain rfl : m = ofPath path predicate v := by
        simpa [ofPath, every, everyAll] using member
      refine ⟨.inr (.inr ⟨path, again⟩), ?_⟩
      cases predicate with
      | group => exact absurd rfl group
      | fragment => exact absurd rfl fragment
      | _ => simp only [ofPath, reloadedKey, again]

theorem every_joined (n : Node) (conjunction : Conjunction) :
    (n.joined conjunction).every = n.joined conjunction :: everyAll n.children := by
  obtain ⟨_, key, predicate, v, children⟩ := n
  rfl

/-- **The keys of what was built are read as themselves**, at every level. -/
theorem Built.keepsKey {n : Node} (built : Built n) : ∀ m ∈ n.every, m.KeepsKey := by
  induction built with
  | compare made => exact keepsKey_of_ofKey made nofun nofun
  | member made => exact keepsKey_of_ofKey made nofun nofun
  | nullCheck made => exact keepsKey_of_ofKey made nofun nofun
  | fragment sql v =>
      intro m member
      obtain rfl : m = Node.fragment sql v := by
        simpa [Node.fragment, every, everyAll] using member
      exact ⟨.inr (.inl rfl), rfl⟩
  | @group children _ each =>
      intro m member
      rcases List.mem_cons.mp (show m ∈ Node.group children :: everyAll children from member)
        with rfl | below
      · exact ⟨.inl rfl, rfl⟩
      · rw [everyAll_eq_flatMap, List.mem_flatMap] at below
        obtain ⟨c, among, inside⟩ := below
        exact each c among m inside
  | @joined n conjunction _ kept =>
      have own : n.KeepsKey := kept n (mem_every_self n)
      intro m member
      rw [every_joined, List.mem_cons] at member
      rcases member with rfl | below
      · exact own
      · exact kept m (mem_every_of_children below)

/-! ## The theorem -/

/-- **Writing a tree without doubles as JSON and reading it back**: it succeeds exactly when
the keys can be read and the text is not too deep, with all that the JSON keeps; a second
time nothing changes, and to built trees without instants nothing does the first time. -/
theorem reload_of_floatless {nodes : List Node}
    (floatless : ∀ n ∈ everyAll nodes, n.value.Without .float) :
    (parseAll (serialize nodes) = .ok (reloadedAll nodes) ↔ Rereadable nodes) ∧
      (¬ Rereadable nodes → ∃ f, parseAll (serialize nodes) = .error (.json f)) ∧
      (∀ back, parseAll (serialize nodes) = .ok back → parseAll (serialize back) = .ok back) ∧
      ((∀ n ∈ nodes, Built n) → (∀ n ∈ everyAll nodes, n.value.Without .date) →
        Json.mostOpen 0 (Json.lexemes (serialize nodes).toList) ≤ 127 →
        parseAll (serialize nodes) = .ok nodes) := by
  refine ⟨?_, fun deep => parseAll_eq_error fun read came => deep ?_,
    fun back came => parseAll_serialize_again floatless came, fun built dateless fits => ?_⟩
  · rw [parseAll_serialize_of_floatless floatless]
    exact and_iff_left rfl
  · exact ((parseAll_serialize_of_floatless floatless).mp came).1
  · have kept : ∀ n ∈ everyAll nodes, n.KeepsKey := by
      rw [everyAll_eq_flatMap]
      intro m member
      obtain ⟨n, among, inside⟩ := List.mem_flatMap.mp member
      exact (built n among).keepsKey m inside
    have same := reloadedAll_eq_self nodes fun n member =>
      ⟨(kept n member).2, Value.reloaded_eq_self (dateless n member) (floatless n member)⟩
    exact (parseAll_serialize_of_floatless floatless).mpr
      ⟨⟨fun n member => (kept n member).1, fits⟩, same.symm⟩

/-- A comparison whose key is a text with blanks and which has children, and an instant and a
constant in a list. -/
def reloadExample : List Node :=
  [⟨.and, .raw " o.total ", .compare .gte, .int (-5),
      [Node.group [⟨.none, .path ⟨none, "born"⟩, .member false,
        .array [.date (.ofSecond 0 (by decide)), .enum "A\n\"B"], []⟩]]⟩,
    (Node.fragment "a ? b" .null).joined .or]

/-- What it comes back as. -/
def reloadExampleBack : List Node :=
  [⟨.and, .path ⟨some "o", "total"⟩, .compare .gte, .int (-5),
      [Node.group [⟨.none, .path ⟨none, "born"⟩, .member false,
        .array [.string "1970-01-01T00:00:00Z", .enum "A\n\"B"], []⟩]]⟩,
    (Node.fragment "a ? b" .null).joined .or]

theorem floatless_keyed_reloadExample :
    ∀ n ∈ everyAll reloadExample, n.value.Without .float ∧ n.Keyed := by
  have items : ∀ v ∈ [Value.date (.ofSecond 0 (by decide)), .enum "A\n\"B"],
      v.Without .float := by
    intro v member
    simp only [List.mem_cons, List.not_mem_nil, or_false] at member
    rcases member with rfl | rfl <;> exact .scalar (by decide) (by decide)
  intro n member
  simp only [reloadExample, everyAll, every, Node.group, Node.fragment, Node.joined,
    List.append_nil, List.nil_append, List.cons_append, List.mem_cons, List.not_mem_nil,
    or_false] at member
  rcases member with rfl | rfl | rfl | rfl
  · exact ⟨.scalar (by decide) (by decide), .inr (.inr ⟨⟨some "o", "total"⟩, rfl⟩)⟩
  · exact ⟨.scalar (by decide) (by decide), .inl rfl⟩
  · exact ⟨.array items, .inr (.inr ⟨⟨none, "born"⟩, rfl⟩)⟩
  · exact ⟨.scalar (by decide) (by decide), .inr (.inl rfl)⟩

theorem reload_of_floatless_mixed :
    parseAll (serialize reloadExample) = .ok reloadExampleBack ∧
      parseAll (serialize reloadExampleBack) = .ok reloadExampleBack := by
  have floatless : ∀ n ∈ everyAll reloadExample, n.value.Without .float :=
    fun n member => (floatless_keyed_reloadExample n member).1
  have fits : Json.mostOpen 0 (Json.lexemes (serialize reloadExample).toList) ≤ 127 := by
    rw [mostOpen_serialize]
    decide
  obtain ⟨comesBack, -, again, -⟩ := reload_of_floatless floatless
  have back : reloadedAll reloadExample = reloadExampleBack := rfl
  have came := comesBack.mpr ⟨fun n member => (floatless_keyed_reloadExample n member).2, fits⟩
  rw [back] at came
  exact ⟨came, again _ came⟩

end Node

end Criteria
