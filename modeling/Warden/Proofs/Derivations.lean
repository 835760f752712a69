import Warden.Association.Loading
import Warden.Memory
import Warden.Proofs.Questions
/-! # Derived objects
Relations are narrowed, records are fetched and built by relations, records lead to the relations of
what is associated with them, or to the associated records themselves. Some derivations **move** an
object on, which stays the same object (`Protected.Moves`), others **make** a new one of it
(`Protected.Makes`). No chain of derivations, at whatever depths of trusted execution, loses the
subject or changes it (`Protected.Chain.restriction_eq`): also where permissions are not enforced
the restriction is handed on. A new object knows no permissions (`Protected.Makes.binding_eq`), so
that an object knows none but those that it has found itself. -/

namespace Warden

/-- A record or a relation. -/
inductive Protected (S Q : Type) where
  /-- A record. -/
  | record (record : Guarded S Q)
  /-- A relation. -/
  | relation (rel : Relation S Q)

namespace Protected

variable {S Q : Type}

/-- Whom an object is bound to, and what is known of the permissions. -/
def binding : Protected S Q → Binding S Q
  | .record one => one.binding
  | .relation rel => rel.binding

variable [Query Q]

/-- An object **moves** on as another one that takes its place. -/
inductive Moves : Protected S Q → Protected S Q → Prop where
  /-- The query of a relation is changed. -/
  | map (rel : Relation S Q) (change : Q → Q) : Moves (.relation rel) (.relation (rel.map change))
  /-- A relation is narrowed to the rows in which a field has a value. -/
  | filterEq (rel : Relation S Q) (field : String) (value : Value) :
    Moves (.relation rel) (.relation (rel.filterEq field value))
  /-- A relation is narrowed to the rows in which a field has one of several values. -/
  | filterIn (rel : Relation S Q) (field : String) (values : List Value) :
    Moves (.relation rel) (.relation (rel.filterIn field values))
  /-- A relation loads an association along. -/
  | including (rel : Relation S Q) (assoc : Association) :
    Moves (.relation rel) (.relation (rel.including assoc))
  /-- A relation starts again from all rows. -/
  | unscoped (rel : Relation S Q) : Moves (.relation rel) (.relation rel.unscoped)
  /-- The row of a record is changed. -/
  | modifyRow (record : Guarded S Q) (change : Row → Row) :
    Moves (.record record) (.record (record.modifyRow change))

/-- An object **makes** a new one. -/
inductive Makes : Protected S Q → Protected S Q → Prop where
  /-- A relation is copied. -/
  | cloneRelation (rel : Relation S Q) : Makes (.relation rel) (.relation rel.clone)
  /-- A record is copied. -/
  | cloneRecord (record : Guarded S Q) : Makes (.record record) (.record record.clone)
  /-- A relation fetches records. -/
  | fetch {site : Site S Q} {rel left : Relation S Q} {trust after : Trust}
    {records : List (Guarded S Q)} {record : Guarded S Q}
    (fetched : (Relation.fetch site).startFrom rel trust = ((.ok records, left), after))
    (mem : record ∈ records) : Makes (.relation rel) (.record record)
  /-- A relation builds a record. -/
  | build (rel : Relation S Q) (values : FieldValues) :
    Makes (.relation rel) (.record (rel.build values))
  /-- A relation builds a record of the values that the subject may give it. -/
  | buildPermitted {site : Site S Q} {rel left : Relation S Q} {trust after : Trust}
    {values : FieldValues} {record : Guarded S Q}
    (built : (Relation.buildPermitted site values).startFrom rel trust =
      ((.ok record, left), after)) : Makes (.relation rel) (.record record)
  /-- An association leads from a record to a relation. -/
  | forOwner (assoc : Association) (owner : Guarded S Q) :
    Makes (.record owner) (.relation (assoc.forOwner owner))
  /-- An association loads records for several owners, whomever they are bound to. -/
  | preload {site : Site S Q} {assoc : Association} {owners : List (Guarded S Q)}
    {trust after : Trust} {loaded : List (List (Guarded S Q))} {owner record : Guarded S Q}
    {records : List (Guarded S Q)}
    (preloaded : (assoc.preload site owners).startFrom trust = (.ok loaded, after))
    (paired : (owner, records) ∈ owners.zip loaded) (mem : record ∈ records) :
    Makes (.record owner) (.record record)

/-- An object is asked a question, which leaves an object and may have **found** permissions. -/
inductive Asked :
    Protected S Q → Protected S Q → Except Panic (Option (Permissions Q)) → Prop where
  /-- A relation is asked. -/
  | relation (site : Site S Q) (rel : Relation S Q) (question : Relation.Question) (trust : Trust) :
    Asked (.relation rel) (.relation ((question.ask site).startFrom rel trust).1.2)
      (rel.found site question.isStrict trust)
  /-- A record is asked. -/
  | record (site : Site S Q) (record : Guarded S Q) (question : Guarded.Question)
    (trust : Trust) :
    Asked (.record record) (.record ((question.ask site).startFrom record trust).1.2)
      (record.found site question.isStrict trust)

/-- A **chain** of derivations leads from one object to another, while settings, rules and rows may
change. Along with it go the permissions that the last object has found itself. -/
inductive Chain (start : Protected S Q) : Protected S Q → List (Permissions Q) → Prop where
  /-- What the first object knows counts as found by itself. -/
  | start : Chain start start start.binding.memo.toList
  /-- The object goes on. -/
  | moved {object next : Protected S Q} {own : List (Permissions Q)}
    (chain : Chain start object own) (step : Moves object next) : Chain start next own
  /-- Another object follows, which has found nothing yet. -/
  | made {object next : Protected S Q} {own : List (Permissions Q)}
    (chain : Chain start object own) (step : Makes object next) :
    Chain start next []
  /-- The object is asked in between. -/
  | asked {object next : Protected S Q} {own : List (Permissions Q)}
    {found : Except Panic (Option (Permissions Q))} (chain : Chain start object own)
    (step : Asked object next found) :
    Chain start next (own ++ (found.toOption.bind id).toList)

variable {site : Site S Q} {start object next : Protected S Q} {own : List (Permissions Q)}

/-! ## One step -/

/-- An object that moves on stays bound and knows what it knew. -/
theorem Moves.binding_eq (step : Moves object next) : next.binding = object.binding := by
  cases step <;> rfl

/-- What is loaded for owners are some rows, sorted by owner. -/
theorem exists_rows_of_preload {assoc : Association} {owners : List (Guarded S Q)}
    {trust after : Trust} {loaded : List (List (Guarded S Q))}
    (preloaded : (assoc.preload site owners).startFrom trust = (.ok loaded, after)) :
    ∃ rows, loaded = owners.map (assoc.rowsOf rows) := by
  unfold Association.preload at preloaded
  cases owners with
  | nil =>
    cases preloaded
    exact ⟨[], rfl⟩
  | cons first rest =>
    dsimp only at preloaded
    -- There are three ways to a query, after which all goes on alike.
    split at preloaded
    · obtain ⟨trusted, between, -, later⟩ := Run.ok_of_bind preloaded
      split at later
      · cases later
        exact ⟨_, rfl⟩
      · obtain ⟨query, _, -, fetched⟩ := Run.ok_of_bind later
        cases fetched
        exact ⟨site.store.fetch query, rfl⟩
    · cases preloaded
      exact ⟨_, rfl⟩

/-- The records that are loaded for an owner are bound as the owner is. -/
theorem binding_of_preload {assoc : Association} {owners : List (Guarded S Q)}
    {trust after : Trust} {loaded : List (List (Guarded S Q))} {owner record : Guarded S Q}
    {records : List (Guarded S Q)}
    (preloaded : (assoc.preload site owners).startFrom trust = (.ok loaded, after))
    (paired : (owner, records) ∈ owners.zip loaded) (mem : record ∈ records) :
    record.binding = .fresh owner.binding.restriction := by
  obtain ⟨rows, rfl⟩ := exists_rows_of_preload preloaded
  obtain ⟨place, found⟩ := List.mem_iff_getElem?.mp paired
  obtain ⟨ofOwner, ofRecords⟩ := List.getElem?_zip_eq_some.mp found
  rw [List.getElem?_map, ofOwner] at ofRecords
  have same : assoc.rowsOf rows owner = records := Option.some.inj ofRecords
  rw [← same] at mem
  obtain ⟨row, -, rfl⟩ := List.mem_map.mp mem
  rfl

/-- What a relation answers to a question, if it answers. -/
theorem answer_of_asked {rel left : Relation S Q} (question : Relation.Question)
    {trust after : Trust} {answer : question.Answer S Q}
    (asked : (question.ask site).startFrom rel trust = ((.ok answer, left), after)) :
    ∃ found, answer = question.answer site rel found := by
  rw [Relation.startFrom_ask, Relation.outcome] at asked
  have answered : (rel.found site question.isStrict trust).map (question.answer site rel) =
      .ok answer := congrArg (fun result => result.1.1) asked
  cases finds : rel.found site question.isStrict trust with
  | error panic =>
    rw [finds] at answered
    cases answered
  | ok found =>
    rw [finds] at answered
    exact ⟨found, (Except.ok.inj answered).symm⟩

/-- **A new object** is bound as the one that it is made of, and knows no permissions. -/
theorem Makes.binding_eq (step : Makes object next) :
    next.binding = .fresh object.binding.restriction := by
  cases step with
  | cloneRelation rel => rfl
  | cloneRecord record => rfl
  | fetch fetched mem =>
    obtain ⟨found, rfl⟩ := answer_of_asked .fetch fetched
    obtain ⟨row, -, rfl⟩ := List.mem_map.mp mem
    rfl
  | build rel values => rfl
  | @buildPermitted site rel left trust after values record built =>
    obtain ⟨found, rfl⟩ := answer_of_asked (.build values) built
    rfl
  | forOwner assoc owner =>
    show (assoc.forOwner owner).binding = _
    unfold Association.forOwner
    dsimp only
    cases assoc.ownerKey owner.row owner.model.table <;> rfl
  | preload preloaded paired mem => exact binding_of_preload preloaded paired mem

/-- **A question** changes nothing but what is known, and then to what was found. -/
theorem Asked.binding_eq {found : Except Panic (Option (Permissions Q))}
    (step : Asked object next found) : next.binding = object.binding.keeping found := by
  cases step with
  | relation site rel question trust =>
    show ((question.ask site).startFrom rel trust).1.2.binding = _
    rw [Relation.startFrom_ask]
    rfl
  | record site record question trust =>
    show ((question.ask site).startFrom record trust).1.2.binding = _
    rw [Guarded.startFrom_ask]
    rfl

/-! ## Chains -/

/-- Along a chain the restriction stays what it was. -/
theorem Chain.restriction_eq (chain : Chain start object own) :
    object.binding.restriction = start.binding.restriction := by
  induction chain with
  | start => rfl
  | moved _ step ih => rw [step.binding_eq, ih]
  | made _ step ih => rw [step.binding_eq, ← ih]; rfl
  | asked _ step ih => rw [step.binding_eq, Binding.restriction_keeping, ih]

/-- Along a chain an object knows only what it has found itself. -/
theorem Chain.mem_own (chain : Chain start object own) {perms : Permissions Q}
    (known : object.binding.memo = some perms) : perms ∈ own := by
  induction chain with
  | start => exact Option.mem_toList.mpr known
  | moved _ step ih =>
    rw [step.binding_eq] at known
    exact ih known
  | made _ step ih =>
    rw [step.binding_eq] at known
    cases known
  | asked _ step ih =>
    rw [step.binding_eq] at known
    rcases Binding.memo_keeping known with before | rfl
    · exact List.mem_append_left _ (ih before)
    · exact List.mem_append_right _ List.mem_cons_self

/-- **The subject is handed on.** However long a chain of derivations is, and at whatever depths of
trusted execution its steps take place, the object at its end is bound as the first one is, be it to
a subject or to none. It knows no permissions but those that it has found itself, and whatever is
made of it starts with the same restriction and no permissions. -/
theorem hands_on (chain : Chain start object own) :
    object.binding.restriction = start.binding.restriction ∧
      (∀ perms, object.binding.memo = some perms → perms ∈ own) ∧
      ∀ made, Makes object made → made.binding = .fresh start.binding.restriction :=
  ⟨chain.restriction_eq, fun _ known => chain.mem_own known,
    fun _ step => step.binding_eq.trans (congrArg Binding.fresh chain.restriction_eq)⟩

/-- A relation that is bound to the absent subject is narrowed, and fetches a note in trusted
execution; the note is asked for permissions. The comments on it are bound to the absent subject,
too. -/
theorem hands_on_comments :
    let note : Row := Row.stored [("id", .int 1), ("title", .string "a")]
    let memory : Memory := { tables := [("notes", [note])] }
    let site : Site (Option String) MemoryQuery :=
      { book := RuleBook.empty.create.1, store := memory.store }
    let model : Model := { table := Table.withFields "notes" ["title", "note_id"], rules := 0 }
    let comments : Association := ⟨"comments", .hasMany, model, "note_id"⟩
    let notes : Relation (Option String) MemoryQuery := Relation.ofSubject model none
    let fetched : Guarded (Option String) MemoryQuery := .inheriting model note (.bound none)
    let asked := ((Guarded.Question.permissions.ask site).startFrom fetched {}).1.2
    let onNote := comments.forOwner asked
    Chain (.relation notes) (.relation onNote) [] ∧
      onNote.binding.restriction = .bound none ∧ onNote.clone.binding = .fresh (.bound none) := by
  intro note memory site model comments notes fetched asked onNote
  let narrowed := notes.filterEq "title" (.string "a")
  have fetches : (Relation.fetch site).startFrom narrowed { guards := 1 } =
      ((.ok [fetched], narrowed), { guards := 1 }) := rfl
  have chain : Chain (.relation notes) (.relation onNote) [] :=
    (((Chain.start.moved (.filterEq notes "title" (.string "a"))).made
      (.fetch fetches List.mem_cons_self)).asked (.record site fetched .permissions {})).made
      (.forOwner comments asked)
  obtain ⟨restriction, -, made⟩ := hands_on chain
  exact ⟨chain, restriction, made _ (.cloneRelation onNote)⟩

end Protected

end Warden
