/-
# Criteria.Proofs.KeyClasses -- the predicate tells the class of a key

The type of nodes lets any key stand with any predicate.  Trees that come from outside are
`WellKeyed`: a group has no key, a fragment has a text, and every other node names a field
with it.  Reading decides the class when a node is complete, at every level, and so do the
builders (`Supplied.wellKeyed`).  Filtering and compiling keep the keys of what they leave,
also when they fail, and reloading decides their class anew (`Step.wellKeyed`).

So a key that cannot be used is a fault that no such tree runs into
(`invalidKey_unreachable`).
-/
import Criteria.Proofs.Alignment
import Criteria.Proofs.MixedLists
import Criteria.Proofs.Reloading
import Mathlib.Logic.Relation

namespace Criteria

set_option autoImplicit false

open Json (Document Name)

/-! ## Classes of keys -/

/-- The field is a name, and so is the alias if there is one. -/
def Path.Named (p : Path) : Prop :=
  isName p.field.toList = true ∧ ∀ name, p.qualifier = some name → isName name.toList = true

namespace Node

/-- The key is of the class that goes with the predicate. -/
def WellKeyed (n : Node) : Prop :=
  match n.predicate with
  | .group => n.key = .none
  | .fragment => ∃ sql, n.key = .raw sql
  | _ => ∃ p, n.key = .path p ∧ p.Named

/-- A node other than groups and fragments has a path with names. -/
theorem WellKeyed.named {n : Node} (keyed : n.WellKeyed) (group : n.predicate ≠ .group)
    (fragment : n.predicate ≠ .fragment) : ∃ p, n.key = .path p ∧ p.Named := by
  unfold WellKeyed at keyed
  cases predicate : n.predicate with
  | group => exact absurd predicate group
  | fragment => exact absurd predicate fragment
  | _ =>
      rw [predicate] at keyed
      exact keyed

/-- **A key that was read is of the class of its predicate.** -/
theorem wellKeyed_of_keyFor {n : Node} {text : String}
    (read : keyFor n.predicate text = .ok n.key) : n.WellKeyed := by
  unfold keyFor at read
  unfold WellKeyed
  cases predicate : n.predicate with
  | group =>
      rw [predicate] at read
      exact (Except.ok.inj read).symm
  | fragment =>
      rw [predicate] at read
      exact ⟨text, (Except.ok.inj read).symm⟩
  | _ =>
      rw [predicate] at read
      cases parsed : Path.parse text with
      | error e => simp [parsed, Except.map] at read
      | ok p =>
          simp only [parsed, Except.map, Except.ok.injEq] at read
          exact ⟨p, read.symm, Path.isName_of_parse parsed⟩

/-- **A key of the class of its predicate is read again as itself.** -/
theorem WellKeyed.keyFor_text {n : Node} (keyed : n.WellKeyed) :
    keyFor n.predicate n.key.text = .ok n.key := by
  unfold WellKeyed at keyed
  unfold keyFor
  cases predicate : n.predicate with
  | group =>
      rw [predicate] at keyed
      rw [keyed]
  | fragment =>
      rw [predicate] at keyed
      obtain ⟨sql, key⟩ := keyed
      rw [key]
      rfl
  | _ =>
      rw [predicate] at keyed
      obtain ⟨p, key, fieldName, qualifierName⟩ := keyed
      have read : Path.parse n.key.text = .ok p := by
        rw [key]
        exact Path.parse_text_of_names fieldName qualifierName
      rw [read, key]
      rfl

/-! ## Reading -/

/-- A node that was finished has the children of its draft, and a key of the right class. -/
theorem wellKeyed_of_finish {d : Draft} {missing : Json.Mismatch} {n : Node}
    (finished : d.finish missing = .ok n) : n.WellKeyed ∧ n.children = d.children.getD [] := by
  unfold Draft.finish at finished
  cases decided : d.predicate with
  | none => simp [decided] at finished
  | some predicate =>
      simp only [decided] at finished
      cases read : keyFor predicate (d.key.getD "") with
      | error text => simp [read] at finished
      | ok key =>
          simp only [read, Except.ok.injEq] at finished
          subst finished
          exact ⟨wellKeyed_of_keyFor read, rfl⟩

/-- What is read into a draft once is read when it is not there yet. -/
theorem exists_of_unrepeated {α : Type} {given : Bool} {label : String}
    {value : Except Json.Fault α} {next : α → Except Json.Fault Draft} {last : Draft}
    (read : (if given = true then throw (repeated label) >>= fun _ : PUnit => value >>= next
      else value >>= next) = .ok last) :
    ∃ a, value = .ok a ∧ next a = .ok last := by
  cases given with
  | true => cases read
  | false => exact Json.bind_eq_ok_iff.mp read

/-- A draft has got its children from a document, or has those that it had. -/
def TookChildren (room : Nat) (d : Document) (before after : Draft) : Prop :=
  after.children = before.children ∨
    ∃ children, readList room d = .ok children ∧ after.children = some children

/-- What a field does to a draft, as far as the children go. -/
theorem exists_readFields_cons {room : Nat} {draft last : Draft} {name : Name} {d : Document}
    {rest : List (Name × Document)}
    (read : readFields room draft ((name, d) :: rest) = .ok last) :
    ∃ next, TookChildren room d draft next ∧ readFields room next rest = .ok last := by
  rw [readFields, Json.bind_eq_ok_iff] at read
  obtain ⟨label, -, read⟩ := read
  split at read
  -- The children go by two names; a field with any other name leaves them alone.
  case h_5 | h_6 =>
    obtain ⟨children, found, read⟩ := exists_of_unrepeated read
    exact ⟨_, .inr ⟨children, found, rfl⟩, read⟩
  case h_7 => exact ⟨draft, .inl rfl, read⟩
  all_goals
    obtain ⟨_, -, read⟩ := exists_of_unrepeated read
    refine ⟨_, ?_, read⟩
    exact .inl rfl

/-- What an item does to a draft. -/
theorem exists_readSlots_cons {room place : Nat} {draft last : Draft} {d : Document}
    {rest : List Document} (read : readSlots room place draft (d :: rest) = .ok last) :
    ∃ next, TookChildren room d draft next ∧ readSlots room (place + 1) next rest = .ok last := by
  unfold readSlots at read
  split at read
  case h_5 =>
    obtain ⟨children, found, read⟩ := Json.bind_eq_ok_iff.mp read
    exact ⟨_, .inr ⟨children, found, rfl⟩, read⟩
  case h_6 => cases read
  all_goals
    obtain ⟨_, -, read⟩ := Json.bind_eq_ok_iff.mp read
    refine ⟨_, ?_, read⟩
    exact .inl rfl

/-- All nodes of a list are of the right classes, the children of every node among them. -/
def AllWellKeyed (nodes : List Node) : Prop :=
  ∀ n ∈ everyAll nodes, n.WellKeyed

theorem allWellKeyed_nil : AllWellKeyed [] := nofun

theorem allWellKeyed_cons_iff {n : Node} {rest : List Node} :
    AllWellKeyed (n :: rest) ↔ n.WellKeyed ∧ AllWellKeyed n.children ∧ AllWellKeyed rest :=
  forall_mem_everyAll_cons

theorem TookChildren.allWellKeyed {room : Nat} {d : Document} {before after : Draft}
    (took : TookChildren room d before after) (had : AllWellKeyed (before.children.getD []))
    (read : ∀ children, readList room d = .ok children → AllWellKeyed children) :
    AllWellKeyed (after.children.getD []) := by
  rcases took with same | ⟨children, found, new⟩
  · rw [same]
    exact had
  · rw [new]
    exact read children found

mutual

/-- A node read off a document is of the right class, and so are all nodes below it. -/
theorem allWellKeyed_of_ofDocument (room : Nat) (n : Node) :
    (d : Document) → ofDocument room d = .ok n → AllWellKeyed [n]
  | .object fields stop, read => by
      rw [ofDocument] at read
      simp only [Json.bind_eq_ok_iff] at read
      obtain ⟨inner, -, draft, read, -, -, finished⟩ := read
      obtain ⟨own, children⟩ := wellKeyed_of_finish finished
      refine allWellKeyed_cons_iff.mpr ⟨own, ?_, allWellKeyed_nil⟩
      rw [children]
      exact allWellKeyed_of_readFields inner fields .blank draft allWellKeyed_nil read
  | .array items stop, read => by
      rw [ofDocument] at read
      simp only [Json.bind_eq_ok_iff] at read
      obtain ⟨inner, -, draft, read, -, -, finished⟩ := read
      obtain ⟨own, children⟩ := wellKeyed_of_finish finished
      refine allWellKeyed_cons_iff.mpr ⟨own, ?_, allWellKeyed_nil⟩
      rw [children]
      exact allWellKeyed_of_readSlots inner items 0 .blank draft allWellKeyed_nil read
  | .null, read => nomatch read
  | .bool _, read => nomatch read
  | .number _, read => nomatch read
  | .string _, read => nomatch read
  | .broken _ _, read => nomatch read

theorem allWellKeyed_of_readFields (room : Nat) :
    (fields : List (Name × Document)) → (draft last : Draft) →
      AllWellKeyed (draft.children.getD []) → readFields room draft fields = .ok last →
      AllWellKeyed (last.children.getD [])
  | [], draft, last, had, read => by
      rw [readFields] at read
      cases read
      exact had
  | (name, d) :: rest, draft, last, had, read => by
      obtain ⟨next, took, read⟩ := exists_readFields_cons read
      have now := took.allWellKeyed had fun children found =>
        allWellKeyed_of_readList room d children found
      exact allWellKeyed_of_readFields room rest next last now read

theorem allWellKeyed_of_readSlots (room : Nat) :
    (items : List Document) → (place : Nat) → (draft last : Draft) →
      AllWellKeyed (draft.children.getD []) → readSlots room place draft items = .ok last →
      AllWellKeyed (last.children.getD [])
  | [], place, draft, last, had, read => by
      rw [readSlots] at read
      cases read
      exact had
  | d :: rest, place, draft, last, had, read => by
      obtain ⟨next, took, read⟩ := exists_readSlots_cons read
      have now := took.allWellKeyed had fun children found =>
        allWellKeyed_of_readList room d children found
      exact allWellKeyed_of_readSlots room rest (place + 1) next last now read

theorem allWellKeyed_of_readList (room : Nat) :
    (d : Document) → (nodes : List Node) → readList room d = .ok nodes → AllWellKeyed nodes
  | .array items stop, nodes, read => by
      rw [readList] at read
      simp only [Json.bind_eq_ok_iff] at read
      obtain ⟨inner, -, found, read, -, -, same⟩ := read
      cases same
      exact allWellKeyed_of_readItems inner items nodes read
  | .null, _, read => nomatch read
  | .bool _, _, read => nomatch read
  | .number _, _, read => nomatch read
  | .string _, _, read => nomatch read
  | .object _ _, _, read => nomatch read
  | .broken _ _, _, read => nomatch read

theorem allWellKeyed_of_readItems (room : Nat) :
    (items : List Document) → (nodes : List Node) → readItems room items = .ok nodes →
      AllWellKeyed nodes
  | [], nodes, read => by
      rw [readItems] at read
      cases read
      exact allWellKeyed_nil
  | d :: rest, nodes, read => by
      rw [readItems] at read
      simp only [Json.bind_eq_ok_iff] at read
      obtain ⟨first, here, others, there, same⟩ := read
      cases same
      obtain ⟨own, below, -⟩ :=
        allWellKeyed_cons_iff.mp (allWellKeyed_of_ofDocument room first d here)
      exact allWellKeyed_cons_iff.mpr ⟨own, below, allWellKeyed_of_readItems room rest others there⟩

end

/-- Whatever a text is decoded as was read off a document. -/
theorem exists_document_of_decode {α : Type} {reader : Nat → Document → Except Json.Fault α}
    {text : String} {a : α} (decoded : Json.decode reader text = .ok a) :
    ∃ room d, reader room d = .ok a := by
  unfold Json.decode at decoded
  simp only [Json.bind_eq_ok_iff] at decoded
  obtain ⟨b, read, -, -, same⟩ := decoded
  cases same
  exact ⟨_, _, read⟩

/-- **The nodes of a text are of the right classes**, at every level. -/
theorem allWellKeyed_of_parseAll {text : String} {nodes : List Node}
    (read : parseAll text = .ok nodes) : AllWellKeyed nodes := by
  obtain ⟨room, d, read⟩ := exists_document_of_decode (parseAll_eq_ok_iff.mp read)
  exact allWellKeyed_of_readList room d nodes read

theorem allWellKeyed_of_parse {text : String} {n : Node} (read : parse text = .ok n) :
    AllWellKeyed [n] := by
  unfold parse at read
  cases decoded : Json.decode ofDocument text with
  | error f => simp [decoded] at read
  | ok m =>
      simp only [decoded, Except.ok.injEq] at read
      obtain ⟨room, d, found⟩ := exists_document_of_decode decoded
      rw [read] at found
      exact allWellKeyed_of_ofDocument room n d found

/-! ## Trees from outside -/

/-- The node was read from a text or built, or it was put together from such nodes. -/
inductive Supplied : Node → Prop where
  | read {text : String} {n : Node} : parse text = .ok n → Supplied n
  | listed {text : String} {nodes : List Node} {n : Node} :
      parseAll text = .ok nodes → n ∈ nodes → Supplied n
  | built {n : Node} : Built n → Supplied n
  | group {children : List Node} : (∀ c ∈ children, Supplied c) → Supplied (Node.group children)
  | joined {n : Node} (conjunction : Conjunction) : Supplied n → Supplied (n.joined conjunction)

theorem KeepsKey.wellKeyed {n : Node} (keeps : n.KeepsKey) : n.WellKeyed :=
  wellKeyed_of_keyFor (keyFor_eq_ok_iff.mpr ⟨keeps.1, keeps.2.symm⟩)

theorem allWellKeyed_singleton_iff {n : Node} :
    AllWellKeyed [n] ↔ n.WellKeyed ∧ AllWellKeyed n.children := by
  rw [allWellKeyed_cons_iff, and_iff_left allWellKeyed_nil]

/-- A list is of the right classes when each of its trees is. -/
theorem allWellKeyed_iff_forall {nodes : List Node} :
    AllWellKeyed nodes ↔ ∀ n ∈ nodes, AllWellKeyed [n] := by
  induction nodes with
  | nil => exact iff_of_true allWellKeyed_nil nofun
  | cons n rest ih =>
      rw [List.forall_mem_cons, ← ih, allWellKeyed_cons_iff, allWellKeyed_singleton_iff, and_assoc]

/-- **What comes from outside is of the right classes**, at every level. -/
theorem Supplied.allWellKeyed {n : Node} (supplied : Supplied n) : AllWellKeyed [n] := by
  induction supplied with
  | read read => exact allWellKeyed_of_parse read
  | listed read member => exact allWellKeyed_iff_forall.mp (allWellKeyed_of_parseAll read) _ member
  | built built =>
      intro m member
      rw [everyAll, everyAll, List.append_nil] at member
      exact (built.keepsKey m member).wellKeyed
  | group _ each => exact allWellKeyed_singleton_iff.mpr ⟨rfl, allWellKeyed_iff_forall.mpr each⟩
  | joined conjunction _ kept =>
      obtain ⟨own, below⟩ := allWellKeyed_singleton_iff.mp kept
      exact allWellKeyed_singleton_iff.mpr ⟨own, below⟩

end Node

/-! ## Steps -/

open Node

/-- What is done to a list of nodes, with or without a fault: it is filtered or compiled in
some context, or written as JSON and read back. -/
inductive Step : List Node → List Node → Prop where
  | filtered (ctx : Context) (nodes : List Node) : Step nodes (filter ctx nodes).nodes
  | compiled (ctx : Context) (dialect : Dialect) (nodes : List Node) :
      Step nodes (compile ctx dialect nodes).1
  | reloaded {nodes back : List Node} : parseAll (serialize nodes) = .ok back → Step nodes back

/-- What is left of a forest has its keys from there. -/
theorem Thinned.allWellKeyed {ctx : Context} {nodes left : List Node}
    (thinned : Thinned ctx nodes left) (keyed : AllWellKeyed nodes) : AllWellKeyed left := by
  induction thinned with
  | nil => exact allWellKeyed_nil
  | drop _ after =>
      obtain ⟨-, -, behind⟩ := allWellKeyed_cons_iff.mp keyed
      exact after behind
  | keep _ _ _ inner after =>
      obtain ⟨own, below, behind⟩ := allWellKeyed_cons_iff.mp keyed
      exact allWellKeyed_cons_iff.mpr ⟨own, inner below, after behind⟩

theorem allWellKeyed_filter (ctx : Context) {nodes : List Node} (keyed : AllWellKeyed nodes) :
    AllWellKeyed (filter ctx nodes).nodes :=
  (filterAll_thinned ctx nodes 0).allWellKeyed keyed

theorem allWellKeyed_dropFirstConjunction {nodes : List Node} (keyed : AllWellKeyed nodes) :
    AllWellKeyed (dropFirstConjunction nodes) := by
  cases nodes with
  | nil => exact keyed
  | cons n rest =>
      obtain ⟨own, below, behind⟩ := allWellKeyed_cons_iff.mp keyed
      exact allWellKeyed_cons_iff.mpr ⟨own, below, behind⟩

/-- **A step keeps the classes of keys.** -/
theorem Step.allWellKeyed {nodes later : List Node} (step : Step nodes later)
    (keyed : AllWellKeyed nodes) : AllWellKeyed later := by
  cases step with
  | filtered ctx => exact allWellKeyed_filter ctx keyed
  | compiled ctx dialect =>
      have filtered := allWellKeyed_filter ctx keyed
      cases ended : (filter ctx nodes).failure with
      | some f =>
          rw [compile_of_fault dialect ended]
          exact filtered
      | none =>
          rw [compile_of_whole dialect ended]
          exact allWellKeyed_dropFirstConjunction filtered
  | reloaded read => exact allWellKeyed_of_parseAll read

/-- And so does a run of steps. -/
theorem allWellKeyed_of_steps {nodes later : List Node}
    (steps : Relation.ReflTransGen Step nodes later) (keyed : AllWellKeyed nodes) :
    AllWellKeyed later := by
  induction steps with
  | refl => exact keyed
  | tail _ step ih => exact step.allWellKeyed ih

/-! ## Keys that cannot be used -/

/-- Judging a node of the right class does not object to its key. -/
theorem Node.WellKeyed.judge_ne_invalidKey {ctx : Context} {n : Node} (keyed : n.WellKeyed)
    (text : String) : ctx.judge n.key n.predicate n.value ≠ .error (.invalidKey text) := by
  intro refused
  -- Groups and fragments are not judged by their keys, and all others have a path.
  by_cases group : n.predicate = .group
  · rw [group] at refused
    cases refused
  by_cases fragment : n.predicate = .fragment
  · rw [fragment] at refused
    cases refused
  obtain ⟨p, key, -⟩ := keyed.named group fragment
  cases Context.objection_of_judge refused with
  | invalidKey noPath => exact noPath p key

theorem faultAt_ne_invalidKey {ctx : Context} {depth : Nat} {nodes : List Node}
    {address : Address} {f : Fault} (fault : FaultAt ctx depth nodes address f)
    (keyed : AllWellKeyed nodes) (text : String) : f ≠ .invalidKey text := by
  induction fault with
  | here found own =>
      obtain ⟨keyed, -⟩ :=
        allWellKeyed_singleton_iff.mp (allWellKeyed_iff_forall.mp keyed _ (List.mem_of_getElem? found))
      cases own with
      | refused refused =>
          rintro rfl
          exact keyed.judge_ne_invalidKey text refused
      | tooDeep _ _ _ => nofun
  | inside found _ _ _ ih =>
      obtain ⟨-, below⟩ :=
        allWellKeyed_singleton_iff.mp (allWellKeyed_iff_forall.mp keyed _ (List.mem_of_getElem? found))
      exact ih below

theorem filter_ne_invalidKey (ctx : Context) {nodes : List Node} (keyed : AllWellKeyed nodes)
    (text : String) : (filter ctx nodes).failure ≠ some (.invalidKey text) := by
  intro failed
  have ended : filter ctx nodes = ⟨(filter ctx nodes).nodes, some (.invalidKey text)⟩ := by
    rw [← failed]
  obtain ⟨address, fault, -, -⟩ := (filter_eq_fault_iff ctx nodes _ _).mp ended
  exact faultAt_ne_invalidKey fault keyed text rfl

theorem compile_ne_invalidKey (ctx : Context) (dialect : Dialect) {nodes : List Node}
    (keyed : AllWellKeyed nodes) (text : String) :
    (compile ctx dialect nodes).2 ≠ .error (.invalidKey text) := by
  intro failed
  cases ended : (filter ctx nodes).failure with
  | some f =>
      rw [compile_of_fault dialect ended] at failed
      cases failed
      exact filter_ne_invalidKey ctx keyed text ended
  | none =>
      have ends := writingEnds_filter ended
      rw [(compile_eq_error_iff_of_whole ended).mp failed] at ends
      obtain ⟨key, expected, found, same⟩ := ends.firstRefusal.eq_mixedMembership
      cases same

/-! ## Keys that are written -/

/-- A key that the body of a node writes is its own, or one below a group. -/
theorem key_of_emitBody {limit depth : Nat} {n : Node} {text : String}
    (member : Token.key text ∈ (emitBody limit depth n).written) :
    (n.predicate ≠ .group ∧ n.predicate ≠ .fragment ∧ text = n.key.text) ∨
      Token.key text ∈ (emitAll limit (depth + 1) true n.children).written := by
  unfold emitBody at member
  cases predicate : n.predicate with
  | group =>
      simp only [predicate] at member
      rcases Emitted.mem_followedBy member with member | closed
      · rcases Emitted.mem_followedBy member with opened | inner
        · simp at opened
        · split at inner
          · simp at inner
          · exact .inr inner
      · simp at closed
  | fragment => simp [predicate] at member
  | nullCheck negated => exact .inl (by simpa [predicate] using member)
  | compare op =>
      refine .inl ?_
      simp only [predicate] at member
      split at member <;> simpa using member
  | member negated =>
      refine .inl ?_
      simp only [predicate, emitMembership] at member
      split at member
      · simpa using member
      · simp at member

/-- A key that is written is that of some node. -/
theorem exists_node_of_key (limit : Nat) {text : String} (nodes : List Node) :
    ∀ depth leading, Token.key text ∈ (emitAll limit depth leading nodes).written →
      ∃ n ∈ everyAll nodes, n.predicate ≠ .group ∧ n.predicate ≠ .fragment ∧ text = n.key.text := by
  induction nodes using forest_induction with
  | nil =>
      intro depth leading member
      simp [emitAll] at member
  | cons n rest inner after =>
      intro depth leading member
      simp only [everyAll_cons, List.mem_cons, List.mem_append]
      rw [emitAll] at member
      split at member
      · obtain ⟨m, among, found⟩ := after depth leading member
        exact ⟨m, .inr (.inr among), found⟩
      rcases Emitted.mem_followedBy member with own | later
      · rw [emitNode_written, List.mem_cons] at own
        rcases own with joiner | body
        · cases joiner
        rcases key_of_emitBody body with here | below
        · exact ⟨n, .inl rfl, here⟩
        · obtain ⟨m, among, found⟩ := inner (depth + 1) true below
          exact ⟨m, .inr (.inl among), found⟩
      · obtain ⟨m, among, found⟩ := after depth false later
        exact ⟨m, .inr (.inr among), found⟩

/-- **A tree from outside never runs into a key that cannot be used.**  After any steps every
node has a key of the class of its predicate; filtering and compiling find no invalid key,
and every key that is written is a path with names. -/
theorem invalidKey_unreachable {nodes later : List Node} (supplied : ∀ n ∈ nodes, Supplied n)
    (steps : Relation.ReflTransGen Step nodes later) :
    (∀ n ∈ everyAll later, n.WellKeyed) ∧
      (∀ ctx text, (filter ctx later).failure ≠ some (.invalidKey text)) ∧
      (∀ ctx dialect text, (compile ctx dialect later).2 ≠ .error (.invalidKey text)) ∧
      ∀ limit text, Token.key text ∈ (emit limit later).written →
        ∃ p : Path, p.Named ∧ text = p.text := by
  have start : AllWellKeyed nodes :=
    allWellKeyed_iff_forall.mpr fun n member => (supplied n member).allWellKeyed
  have keyed : AllWellKeyed later := allWellKeyed_of_steps steps start
  refine ⟨keyed, fun ctx => filter_ne_invalidKey ctx keyed,
    fun ctx dialect => compile_ne_invalidKey ctx dialect keyed, fun limit text member => ?_⟩
  obtain ⟨n, among, group, fragment, rfl⟩ := exists_node_of_key limit later 0 false member
  obtain ⟨p, key, named⟩ := (keyed n among).named group fragment
  exact ⟨p, named, by rw [key]; rfl⟩

/-- A text that says a condition, with blanks around its key, and below it a group with a key
that does not matter. -/
def suppliedText : String :=
  serialize [⟨.none, .raw " u.born ", .compare .gte, .string "2020-01-01",
    [⟨.none, .raw "a.b.c", .group, .null, []⟩]⟩]

/-- What the text says, and a condition on a field that users do not have. -/
def suppliedExample : List Node :=
  [⟨.none, .path ⟨some "u", "born"⟩, .compare .gte, .string "2020-01-01", [Node.group []]⟩,
    (Node.ofPath ⟨none, "ghost"⟩ (.compare .eq) (.int 5)).joined .and]

theorem parseAll_suppliedText : parseAll suppliedText = .ok (suppliedExample.take 1) := by
  refine parseAll_serialize_of_keyed ?_ (by decide)
  intro n member
  simp only [everyAll, every, List.append_nil, List.mem_cons, List.not_mem_nil, or_false] at member
  rcases member with rfl | rfl
  · exact ⟨.scalar (by decide) (by decide), .inr (.inr ⟨⟨some "u", "born"⟩, rfl⟩)⟩
  · exact ⟨.scalar (by decide) (by decide), .inl rfl⟩

theorem supplied_suppliedExample : ∀ n ∈ suppliedExample, Supplied n := by
  intro n member
  simp only [suppliedExample, List.mem_cons, List.not_mem_nil, or_false] at member
  rcases member with rfl | rfl
  · exact .listed parseAll_suppliedText List.mem_cons_self
  · have ghost : compare .eq "ghost" (.int 5) =
        .ok (Node.ofPath ⟨none, "ghost"⟩ (.compare .eq) (.int 5)) := rfl
    exact .joined .and (.built (.compare ghost))

theorem reload_suppliedExample :
    parseAll (serialize suppliedExample) = .ok suppliedExample := by
  have each : ∀ n ∈ everyAll suppliedExample, n.value.Without .float ∧ n.Keyed := by
    intro n member
    simp only [suppliedExample, everyAll, every, Node.group, Node.ofPath, Node.joined,
      List.append_nil, List.nil_append, List.cons_append, List.mem_cons, List.not_mem_nil,
      or_false] at member
    rcases member with rfl | rfl | rfl
    · exact ⟨.scalar (by decide) (by decide), .inr (.inr ⟨⟨some "u", "born"⟩, rfl⟩)⟩
    · exact ⟨.scalar (by decide) (by decide), .inl rfl⟩
    · exact ⟨.scalar (by decide) (by decide), .inr (.inr ⟨⟨none, "ghost"⟩, rfl⟩)⟩
  exact parseAll_serialize_of_keyed each (by decide)

/-- Read back and then filtered, which fails at the second condition. -/
theorem invalidKey_unreachable_users :
    (filter (userSchema.context "users" [("u", "users")] 2) suppliedExample).failure =
        some (.undeclaredField "users" "ghost") ∧
      (∀ n ∈ everyAll (filter (userSchema.context "users" [("u", "users")] 2)
        suppliedExample).nodes, n.WellKeyed) ∧
      ∀ text, (compile (userSchema.context "users" [] 64) .postgres
        (filter (userSchema.context "users" [("u", "users")] 2) suppliedExample).nodes).2 ≠
          .error (.invalidKey text) := by
  have steps : Relation.ReflTransGen Step suppliedExample
      (filter (userSchema.context "users" [("u", "users")] 2) suppliedExample).nodes :=
    (Relation.ReflTransGen.single (.reloaded reload_suppliedExample)).tail (.filtered _ _)
  obtain ⟨keyed, -, compiles, -⟩ := invalidKey_unreachable supplied_suppliedExample steps
  exact ⟨rfl, keyed, compiles _ _⟩

end Criteria
