import Warden.Number.Shortest
import Warden.Proofs.FieldMaps
import Warden.Yaml.Record
/-! # Reading what was written
A value is **written** as a node of a document without references (`Node.ofValue`): texts and names
are quoted, so that they stay texts, and every other scalar is plain. The readers of nodes meet
written nodes with the equations of this module, in which nothing fails and no reference is
followed.

The other way round, `Reading.Ensures` says what holds of everything that a reader can return,
whatever the document. -/

namespace Warden

namespace Yaml

/-! ## Written values -/

namespace Node

mutual

/-- The node of a value. -/
def ofValue : Value → Node
  | .null => .scalar "null" true
  | .bool b => .scalar (if b then "true" else "false") true
  | .number n => .scalar n.text true
  | .string s => .scalar s false
  | .array items => .sequence (ofItems items)
  | .object fields => .mapping (ofFields fields)

/-- The nodes of items. -/
def ofItems : List Value → List Node
  | [] => []
  | item :: rest => ofValue item :: ofItems rest

/-- The nodes of fields. -/
def ofFields : List (String × Value) → List (Node × Node)
  | [] => []
  | (name, value) :: rest => (.scalar name false, ofValue value) :: ofFields rest

end

end Node

/-- The document of a value, which refers to nothing. -/
def Document.ofValue (value : Value) : Document :=
  { root := .ofValue value, anchors := {}, reach := repetitions * (Node.ofValue value).events }

/-- A reader that needs nothing of the document makes what it returns of every document. -/
theorem Document.read?_of_pure {α : Type} {document : Document} {reader : Node → Reading α} {a : α}
    (needless : reader document.root = pure a) : document.read? reader = some a := by
  rw [read?, needless]
  rfl

namespace Node

variable {α β : Type}

@[simp] theorem text_scalar (content : String) (plain : Bool) :
    (scalar content plain).text = pure content := rfl

@[simp] theorem entries_mapping (pairs : List (Node × Node)) :
    (mapping pairs).entries = pure pairs := rfl

/-- The known parts of written fields are the fields of known names. -/
theorem knownEntries_ofFields (parts : List String) {fields : Fields Value}
    (sorted : fields.Sorted) :
    knownEntries parts (ofFields fields) =
      pure ((fields.restrict parts.contains).mapValues ofValue) := by
  induction fields with
  | nil => rfl
  | cons field rest ih =>
    obtain ⟨name, value⟩ := field
    obtain ⟨later, sortedRest⟩ := Fields.sorted_cons.mp sorted
    -- Later names are greater, so that none repeats this one and it takes the first place.
    have others : ∀ entry ∈ (Fields.restrict rest parts.contains).mapValues ofValue,
        name < entry.1 := by
      intro entry mem
      obtain ⟨kept, known, rfl⟩ := List.mem_map.mp mem
      exact later kept (List.mem_filter.mp known).1
    rw [ofFields, knownEntries, text_scalar, pure_bind, ih sortedRest, pure_bind,
      Fields.restrict_cons]
    cases parts.contains name with
    | false => rfl
    | true =>
      rw [Fields.has, Fields.get?_eq_none_of_lt others, Fields.insert_eq_cons _ others]
      rfl

/-- The parts of a written record. -/
theorem record_ofValue (parts : List String) {fields : Fields Value} (sorted : fields.Sorted) :
    (ofValue (.object fields)).record parts =
      pure ((fields.restrict parts.contains).mapValues ofValue) := by
  rw [record, ofValue, entries_mapping, pure_bind, knownEntries_ofFields parts sorted]

/-- Written fields are read back if each of their values is. -/
theorem fields_ofValue {reader : Node → Reading α} {written : β → Value} (read : β → α)
    {fields : Fields β}
    (each : ∀ entry ∈ fields, reader (ofValue (written entry.2)) = pure (read entry.2)) :
    Node.fields reader (ofValue (.object (fields.mapValues written))) =
      pure (Fields.ofList (fields.mapValues read)) := by
  have pairs : (ofFields (fields.mapValues written)).mapM (fun entry => do
        let name ← entry.1.text
        let value ← reader entry.2
        return (name, value)) = (pure (fields.mapValues read) : Reading _) := by
    induction fields with
    | nil => rfl
    | cons entry rest ih =>
      have first := each entry List.mem_cons_self
      have others := ih fun later mem => each later (List.mem_cons_of_mem entry mem)
      show ((_, ofValue (written entry.2)) :: ofFields (Fields.mapValues written rest)).mapM _ = _
      rw [List.mapM_cons, others]
      dsimp only
      rw [text_scalar, pure_bind, first, pure_bind, pure_bind, pure_bind]
      rfl
  rw [Node.fields, ofValue, entries_mapping, pure_bind, pairs, pure_bind]

end Node

/-! ## What readers return -/

namespace Reading

variable {α β : Type}

/-- Whatever the reader returns, of whatever document, has a property. -/
def Ensures (reader : Reading α) (holds : α → Prop) : Prop :=
  ∀ document followed a left, reader document followed = some (a, left) → holds a

theorem ensures_pure {holds : α → Prop} {a : α} (here : holds a) :
    (pure a : Reading α).Ensures holds := by
  intro document followed b left returned
  cases returned
  exact here

theorem ensures_true (reader : Reading α) : reader.Ensures fun _ => True :=
  fun _ _ _ _ _ => trivial

/-- What the first of two readers ensures may be used for the second. -/
theorem Ensures.bind {reader : Reading α} {next : α → Reading β} {before : α → Prop}
    {holds : β → Prop} (first : reader.Ensures before)
    (rest : ∀ a, before a → (next a).Ensures holds) : (reader >>= next).Ensures holds := by
  intro document followed b left returned
  obtain ⟨⟨a, between⟩, found, returned⟩ := Option.bind_eq_some_iff.mp returned
  exact rest a (first document followed a between found) document between b left returned

/-- What is ensured of each item holds of all that are read. -/
theorem ensures_mapM {item : Type} {items : List item} {reader : item → Reading α}
    {holds : α → Prop} (each : ∀ i, (reader i).Ensures holds) :
    (items.mapM reader).Ensures fun read => ∀ a ∈ read, holds a := by
  induction items with
  | nil => exact ensures_pure (List.forall_mem_nil _)
  | cons first rest ih =>
    rw [List.mapM_cons]
    exact (each first).bind fun a here => ih.bind fun others there =>
      ensures_pure (List.forall_mem_cons.mpr ⟨here, there⟩)

end Reading

namespace Node

variable {α : Type} {reader : Node → Reading α} {holds : α → Prop}

/-- What is ensured of a part, and holds of its default, holds of what is read for it. -/
theorem ensures_part (record : Fields Node) (name : String) {default : α}
    (otherwise : holds default) (each : ∀ node, (reader node).Ensures holds) :
    (part record name default reader).Ensures holds := by
  unfold part
  split
  · exact Reading.ensures_pure otherwise
  · exact each _

/-- What is ensured of a part that may be absent holds of it if it is there. -/
theorem ensures_optional (each : ∀ node, (reader node).Ensures holds) (node : Node) :
    (optional reader node).Ensures fun found => ∀ a ∈ found, holds a := by
  refine (Reading.ensures_true _).bind fun target _ => ?_
  split
  · exact Reading.ensures_pure nofun
  · refine (each target).bind fun a here => Reading.ensures_pure ?_
    rintro _ ⟨⟩
    exact here

/-- What is ensured of each value holds of all values of a map, which is sorted. -/
theorem ensures_fields (each : ∀ node, (reader node).Ensures holds) (node : Node) :
    (fields reader node).Ensures fun found =>
      found.Sorted ∧ ∀ entry ∈ found, holds entry.2 := by
  refine (Reading.ensures_true _).bind fun entries _ => ?_
  have pair (entry : Node × Node) : (entry.1.text >>= fun name => reader entry.2 >>= fun a =>
      pure (name, a)).Ensures fun pair => holds pair.2 :=
    (Reading.ensures_true _).bind fun name _ => (each entry.2).bind fun a here =>
      Reading.ensures_pure here
  refine (Reading.ensures_mapM pair).bind fun pairs all => Reading.ensures_pure ?_
  exact ⟨Fields.sorted_ofList pairs, fun entry mem => all entry (Fields.mem_of_mem_ofList mem)⟩

end Node

/-- What a reader ensures holds of what it makes of a document. -/
theorem Document.of_read? {α : Type} {document : Document} {reader : Node → Reading α}
    {holds : α → Prop} {a : α} (ensures : (reader document.root).Ensures holds)
    (returned : document.read? reader = some a) : holds a := by
  obtain ⟨⟨b, left⟩, found, rfl⟩ := Option.map_eq_some_iff.mp returned
  exact ensures document 0 b left found

end Yaml

end Warden