import Warden.Proofs.Finding
import Warden.Proofs.Permissions.FieldChecks
import Warden.Relation.Reading
/-! # Questions
Of a guarded record much may be asked (`Guarded.Question`) that leaves its row alone. Every question
is answered in the same way (`Guarded.startFrom_ask`): permissions are found, and by them, the model
and the current row it is answered (`Guarded.Question.answer`). Some questions are **strict**: they
need permissions even in trusted execution, and fail without a subject. The others have an answer
without permissions.

The same is true of what may be asked of a relation (`Relation.startFrom_ask`), where the query
takes the place of the row. -/

namespace Warden

/-- Whether values may be written is a steady question. -/
theorem Permissions.steady_isModifiable {Q : Type} (perms : Permissions Q) (action : Action)
    (values : FieldValues) : (perms.isModifiable action (some values)).Steady := by
  rw [isModifiable_eq]
  intro trust
  rw [(perms.steady_firstUnmodifiable action values).startFrom_map]

/-! ## Records -/

namespace Guarded

/-- A **question** about a guarded record. -/
inductive Question where
  /-- What may the subject do? -/
  | permissions
  /-- What is the value of a field? -/
  | read (field : String)
  /-- What are the values of the fields of the table? -/
  | readableValues
  /-- May the record be created with its pending changes? -/
  | creatable
  /-- May it be updated with them? -/
  | updatable
  /-- May the subject delete it? -/
  | destroyable
  /-- Is an action allowed on a field, or on any? -/
  | allows (action : Action) (field : Option String)
  /-- May it be saved? The lookup finds the text of a refusal. -/
  | validate (lookup : String → String → String)
  /-- May it be deleted? -/
  | allowsDestroy
  /-- Is it among the rows that the subject sees? -/
  | visible

namespace Question

/-- What answers a question. -/
abbrev Answer (Q : Type) : Question → Type
  | .permissions => Except Error (Permissions Q)
  | .read _ => Option Value
  | .readableValues => FieldValues
  | .creatable => Except Error Bool
  | .updatable => Except Error Bool
  | .destroyable => Except Error Bool
  | .allows _ _ => Except Error Bool
  | .validate _ => Except Refusal Unit
  | .allowsDestroy => Bool
  | .visible => Bool

/-- Whether a question needs permissions even in trusted execution. -/
def isStrict : Question → Bool
  | .permissions => true
  | .read _ => false
  | .readableValues => false
  | .creatable => true
  | .updatable => true
  | .destroyable => true
  | .allows _ _ => true
  | .validate _ => false
  | .allowsDestroy => false
  | .visible => false

variable {S Q : Type} [Query Q]

/-- Ask a question. -/
def ask (site : Site S Q) : (question : Question) → RunOn (Guarded S Q) (question.Answer Q)
  | .permissions => Guarded.permissions site
  | .read field => Guarded.read site field
  | .readableValues => Guarded.readableValues site
  | .creatable => Guarded.isCreatable site
  | .updatable => Guarded.isUpdatable site
  | .destroyable => Guarded.isDestroyable site
  | .allows action field => Guarded.allows site action field
  | .validate lookup => Guarded.validateWith site lookup
  | .allowsDestroy => Guarded.allowsDestroy site
  | .visible => Guarded.isVisible site

end Question

variable {S Q : Type}

/-- The value of a field as far as the permissions that were found show it. -/
def shown (model : Model) (row : Row) (found : Option (Permissions Q)) (field : String) :
    Option Value :=
  match found with
  | none => row.get? field
  | some perms =>
    if model.table.isPrimaryKey field || perms.isReadable field then row.get? field else none

/-- The values of several fields as far as permissions show them. -/
def shownEach (model : Model) (row : Row) (found : Option (Permissions Q)) :
    List String → FieldValues
  | [] => []
  | field :: rest =>
    match shown model row found field with
    | none => shownEach model row found rest
    | some value => (shownEach model row found rest).insert field value

/-- What a check of the permissions says; without permissions it is an error. -/
def checked (found : Option (Permissions Q)) (check : Permissions Q → Run Bool) :
    Run (Except Error Bool) :=
  match found with
  | none => return .error .unprotectedAccess
  | some perms => do return .ok (← check perms)

variable [Query Q]

/-- Whether a row is among those that permissions leave. -/
def isAmong (site : Site S Q) (model : Model) (row : Row) (perms : Permissions Q) : Bool :=
  match perms.relation with
  | none => true
  | some scope =>
    match row.get? model.table.primaryKey with
    | none => false
    | some key =>
      decide (0 < (site.store.count (Query.filterEq scope model.table.primaryKey key)).getD 0)

/-- **The answer** to a question about a row, by the permissions that were found. -/
def Question.answer (site : Site S Q) (model : Model) (row : Row)
    (found : Option (Permissions Q)) : (question : Question) → Run (question.Answer Q)
  | .permissions => return Permissions.ofFound found
  | .read field => return shown model row found field
  | .readableValues => return shownEach model row found model.fields
  | .creatable => checked found fun perms => perms.isCreatable (some row.changes)
  | .updatable => checked found fun perms => perms.isUpdatable (some row.changes)
  | .destroyable => return (Permissions.ofFound found).map Permissions.destroyable
  | .allows action field =>
    return (Permissions.ofFound found).map fun perms => perms.allows action field
  | .validate lookup =>
    match found with
    | none => return .ok ()
    | some perms => do
      match ← perms.firstUnmodifiable (if row.isNew then .create else .update) row.changes with
      | none => return .ok ()
      | some field => return .error (Refusal.ofField lookup field)
  | .allowsDestroy => return found.elim true Permissions.destroyable
  | .visible => return found.elim true (isAmong site model row)

/-- What asking a record **comes to**: permissions are found and kept, and by them an answer is
given; trusted execution is as before. -/
def outcome {α : Type} (site : Site S Q) (strictly : Bool) (record : Guarded S Q) (trust : Trust)
    (answer : Option (Permissions Q) → Run α) : (Except Panic α × Guarded S Q) × Trust :=
  let found := record.found site strictly trust
  ((found >>= fun found => ((answer found).startFrom trust).1, record.keeping found), trust)

variable {site : Site S Q} {record : Guarded S Q} {trust : Trust} {α : Type}
  {answer : Option (Permissions Q) → Run α}

/-- Asking for permissions and going on with them. -/
theorem startFrom_permissions_bind {next : Except Error (Permissions Q) → RunOn (Guarded S Q) α}
    (rest : ∀ found left, left.model = record.model → left.row = record.row →
      (next (Permissions.ofFound found)).startFrom left trust =
        ((((answer found).startFrom trust).1, left), trust)) :
    (permissions site >>= next).startFrom record trust = record.outcome site true trust answer := by
  rw [RunOn.startFrom_bind, startFrom_permissions_eq, outcome]
  dsimp only
  rcases record.found site true trust with panic | found
  · rfl
  · exact rest found _ rfl rfl

/-- Enforcing permissions and going on with what was found. -/
theorem startFrom_enforced_bind {next : Option (Permissions Q) → RunOn (Guarded S Q) α}
    (rest : ∀ found left, left.model = record.model → left.row = record.row →
      (next found).startFrom left trust = ((((answer found).startFrom trust).1, left), trust)) :
    (enforced site >>= next).startFrom record trust = record.outcome site false trust answer := by
  rw [RunOn.startFrom_bind, startFrom_enforced_eq, outcome]
  dsimp only
  rcases record.found site false trust with panic | found
  · rfl
  · exact rest found _ rfl rfl

/-- Asking what a check of the permissions says. -/
theorem startFrom_check {check : Permissions Q → Run Bool}
    (steady : ∀ perms, (check perms).Steady) :
    (permissions site >>= fun found => match found with
        | .error e => pure (.error e)
        | .ok perms => Run.beside (check perms) >>= fun passed => pure (.ok passed) :
        RunOn (Guarded S Q) (Except Error Bool)).startFrom record trust =
      record.outcome site true trust fun found => checked found check := by
  refine startFrom_permissions_bind fun found left _ _ => ?_
  cases found with
  | none => rfl
  | some perms =>
    dsimp only [Permissions.ofFound]
    rw [RunOn.startFrom_bind, RunOn.startFrom_beside, steady perms, checked,
      (steady perms).startFrom_bind]
    rcases ((check perms).startFrom trust).1 with panic | passed <;> rfl

/-- Reading a field. -/
theorem startFrom_read (field : String) :
    (read site field).startFrom record trust =
      record.outcome site false trust fun found =>
        pure (shown record.model record.row found field) := by
  refine startFrom_enforced_bind fun found left model row => ?_
  rw [RunOn.startFrom_bind, RunOn.startFrom_object, ← model, ← row]
  dsimp only
  cases found with
  | none => rfl
  | some perms =>
    dsimp only [shown]
    split <;> rfl

/-- Reading fields one by one, where each time the same permissions are found. -/
theorem startFrom_readEach_of_found {found : Option (Permissions Q)}
    (finds : record.found site false trust = .ok found) (kept : record.keeping (.ok found) = record)
    (fields : List String) :
    (readEach site fields).startFrom record trust =
      ((.ok (shownEach record.model record.row found fields), record), trust) := by
  induction fields with
  | nil => rfl
  | cons field rest ih =>
    rw [readEach, RunOn.startFrom_bind, startFrom_read, outcome, finds, kept]
    -- The record is not changed by reading the first field, so that the rest is read by induction.
    show (readEach site rest >>= fun others => _).startFrom record trust = _
    rw [RunOn.startFrom_bind, ih, shownEach]
    dsimp only
    cases shown record.model record.row found field <;> rfl

/-- Reading several fields: permissions are needed if there are any fields. -/
theorem startFrom_readEach (field : String) (rest : List String) :
    (readEach site (field :: rest)).startFrom record trust =
      record.outcome site false trust fun found =>
        pure (shownEach record.model record.row found (field :: rest)) := by
  rw [readEach, RunOn.startFrom_bind, startFrom_read, outcome, outcome]
  cases finds : record.found site false trust with
  | error panic => rfl
  | ok found =>
    -- After the first field the record keeps what was found.
    have again := startFrom_readEach_of_found (found_keeping finds)
      (record.keeping_keeping (.ok found)) rest
    show (readEach site rest >>= fun others => _).startFrom (record.keeping (.ok found)) trust = _
    rw [RunOn.startFrom_bind, again]
    show _ = ((Except.ok (shownEach record.model record.row found (field :: rest)), _), trust)
    rw [shownEach]
    dsimp only
    cases shown record.model record.row found field <;> rfl

/-- Checking whether a record may be saved. -/
theorem startFrom_validateWith (lookup : String → String → String) :
    (validateWith site lookup).startFrom record trust =
      record.outcome site false trust fun found =>
        (Question.validate lookup).answer site record.model record.row found := by
  refine startFrom_enforced_bind fun found left _ row => ?_
  cases found with
  | none => rfl
  | some perms =>
    dsimp only
    rw [RunOn.startFrom_bind, RunOn.startFrom_object]
    dsimp only
    rw [row]
    -- New rows are to be created and others updated: one check with the action as a parameter.
    let action : Action := if record.row.isNew then .create else .update
    have same : (if record.row.isNew then perms.firstUncreatable record.row.changes
        else perms.firstUnupdatable record.row.changes) =
        perms.firstUnmodifiable action record.row.changes := by
      dsimp only [action]
      split <;> rfl
    have steady := perms.steady_firstUnmodifiable action record.row.changes
    rw [same, RunOn.startFrom_bind, RunOn.startFrom_beside, steady, Question.answer,
      steady.startFrom_bind]
    rcases ((perms.firstUnmodifiable action record.row.changes).startFrom trust).1 with
      panic | _ | field <;> rfl

/-- Asking whether a record is among the rows that its subject sees. -/
theorem startFrom_isVisible :
    (isVisible site).startFrom record trust =
      record.outcome site false trust fun found =>
        pure (found.elim true (isAmong site record.model record.row)) := by
  refine startFrom_enforced_bind fun found left model row => ?_
  cases found with
  | none => rfl
  | some perms =>
    dsimp only
    rw [Option.elim_some, isAmong]
    -- Without a scope every row is seen, even one without a key.
    cases perms.relation with
    | none => rfl
    | some scope =>
      dsimp only
      rw [RunOn.startFrom_bind, RunOn.startFrom_object]
      dsimp only
      rw [keyValue, model, row]
      cases record.row.get? record.model.table.primaryKey <;> rfl

/-- **Asking a question** finds permissions, and by them, the model and the row it is answered. -/
theorem startFrom_ask (question : Question) (record : Guarded S Q) (trust : Trust) :
    (question.ask site).startFrom record trust =
      record.outcome site question.isStrict trust fun found =>
        question.answer site record.model record.row found := by
  cases question with
  | permissions =>
    rw [Question.ask, startFrom_permissions_eq, outcome]
    dsimp only [Question.isStrict]
    rcases record.found site true trust with _ | _ | _ <;> rfl
  | read field => exact startFrom_read field
  | readableValues =>
    show (readableValues site).startFrom record trust = _
    unfold readableValues
    rw [RunOn.startFrom_bind, RunOn.startFrom_object]
    exact startFrom_readEach _ _
  | creatable =>
    show (isCreatable site).startFrom record trust = _
    unfold isCreatable
    rw [RunOn.startFrom_bind, RunOn.startFrom_object]
    exact startFrom_check fun perms => perms.steady_isModifiable .create record.row.changes
  | updatable =>
    show (isUpdatable site).startFrom record trust = _
    unfold isUpdatable
    rw [RunOn.startFrom_bind, RunOn.startFrom_object]
    exact startFrom_check fun perms => perms.steady_isModifiable .update record.row.changes
  | destroyable => exact startFrom_permissions_bind fun found left _ _ => rfl
  | allows action field => exact startFrom_permissions_bind fun found left _ _ => rfl
  | validate lookup => exact startFrom_validateWith lookup
  | allowsDestroy =>
    refine startFrom_enforced_bind fun found left _ _ => ?_
    cases found <;> rfl
  | visible => exact startFrom_isVisible

/-! ## Assigning -/

/-- The fields that assigning leaves out and the values that it assigns, by the permissions that
were found. -/
def sorted (site : Site S Q) (row : Row) (values : FieldValues) :
    Option (Permissions Q) → List String × FieldValues
  | none => ([], values)
  | some perms =>
    let action := if row.isNew then Action.create else Action.update
    if site.config.strongParameters then
      (values.keys.filter fun field => !perms.allows action (some field),
        perms.permitted action values)
    else ([], values)

/-- **Assigning permitted values** finds permissions, and by them sorts the values; the row is only
touched afterwards. -/
theorem startFrom_assignPermitted (values : FieldValues) (record : Guarded S Q) (trust : Trust) :
    (assignPermitted site values).startFrom record trust =
      match record.found site false trust with
      | .error panic => ((.error panic, record), trust)
      | .ok found =>
        ((.ok (sorted site record.row values found).1,
          (record.keeping (.ok found)).modifyRow fun row =>
            row.setAll (sorted site record.row values found).2), trust) := by
  -- The row is looked at before permissions are found, and finding them does not change it.
  unfold assignPermitted
  rw [RunOn.startFrom_bind, RunOn.startFrom_object]
  dsimp only
  rw [RunOn.startFrom_bind, startFrom_enforced_eq]
  dsimp only
  rcases record.found site false trust with panic | _ | perms
  · rfl
  · rfl
  · dsimp only [sorted]
    cases site.config.strongParameters <;> rfl

end Guarded

/-! ## Relations -/

namespace Relation

/-- A **question** about a relation. -/
inductive Question where
  /-- What may the subject do? -/
  | permissions
  /-- Which query is carried out? -/
  | query
  /-- How many rows are there? -/
  | count
  /-- Are there any? -/
  | hasRows
  /-- Which rows are there? -/
  | fetch
  /-- What is a new record with those values that the subject may give it? -/
  | build (values : FieldValues)

namespace Question

/-- What answers a question. -/
abbrev Answer (S Q : Type) : Question → Type
  | .permissions => Except Error (Permissions Q)
  | .query => Q
  | .count => Nat
  | .hasRows => Bool
  | .fetch => List (Guarded S Q)
  | .build _ => Guarded S Q

/-- Whether a question needs permissions even in trusted execution. -/
def isStrict : Question → Bool
  | .permissions => true
  | _ => false

end Question

variable {S Q : Type} [Query Q] {site : Site S Q} {rel : Relation S Q} {trust : Trust} {α : Type}

/-- Ask a question. -/
def Question.ask (site : Site S Q) :
    (question : Question) → RunOn (Relation S Q) (question.Answer S Q)
  | .permissions => Relation.permissions site
  | .query => restrictedQuery site
  | .count => Relation.count site
  | .hasRows => Relation.hasRows site
  | .fetch => Relation.fetch site
  | .build values => buildPermitted site values

/-- The query that is carried out, by the permissions that were found. -/
def wanted (rel : Relation S Q) (found : Option (Permissions Q)) : Q :=
  found.elim rel.query fun perms => perms.confine rel.query

/-- **The answer** to a question, by the permissions that were found. -/
def Question.answer (site : Site S Q) (rel : Relation S Q) (found : Option (Permissions Q)) :
    (question : Question) → question.Answer S Q
  | .permissions => Permissions.ofFound found
  | .query => rel.wanted found
  | .count => (site.store.count (rel.wanted found)).getD 0
  | .hasRows => decide (0 < (site.store.count (rel.wanted found)).getD 0)
  | .fetch => (site.store.fetch (rel.wanted found)).map fun row =>
      Guarded.inheriting rel.model row rel.binding.restriction
  | .build values => rel.build <| found.elim values fun perms =>
      if site.config.strongParameters then perms.permitted .create values else values

/-- What asking a relation **comes to**: permissions are found and kept, and by them an answer is
given; trusted execution is as before. -/
def outcome (site : Site S Q) (strictly : Bool) (rel : Relation S Q) (trust : Trust)
    (answer : Option (Permissions Q) → α) : (Except Panic α × Relation S Q) × Trust :=
  let found := rel.found site strictly trust
  ((found.map answer, rel.keeping found), trust)

/-- Working out the query to be carried out. -/
theorem startFrom_restrictedQuery :
    (restrictedQuery site).startFrom rel trust = rel.outcome site false trust rel.wanted := by
  unfold restrictedQuery restrictedQueryBy
  rw [RunOn.startFrom_bind, RunOn.startFrom_object]
  dsimp only
  rw [RunOn.startFrom_bind, show enforcedBy site.evaluate = enforced site from rfl,
    startFrom_enforced_eq, outcome]
  dsimp only
  rcases rel.found site false trust with panic | _ | perms
  · rfl
  · rfl
  · dsimp only [Except.map, wanted, Option.elim_some, Permissions.confine]
    cases perms.relation <;> rfl

/-- Working out the query and going on with it. -/
theorem startFrom_restrictedQuery_bind {next : Q → RunOn (Relation S Q) α} (answer : Q → α)
    (rest : ∀ query found, (next query).startFrom (rel.keeping found) trust =
      ((.ok (answer query), rel.keeping found), trust)) :
    (restrictedQuery site >>= next).startFrom rel trust =
      rel.outcome site false trust fun found => answer (rel.wanted found) := by
  rw [RunOn.startFrom_bind, startFrom_restrictedQuery, outcome, outcome]
  rcases rel.found site false trust with panic | found
  · rfl
  · exact rest _ _

/-- Counting the rows. -/
theorem startFrom_count :
    (Relation.count site).startFrom rel trust =
      rel.outcome site false trust fun found => (site.store.count (rel.wanted found)).getD 0 :=
  startFrom_restrictedQuery_bind (fun query => (site.store.count query).getD 0) fun _ _ => rfl

/-- **Asking a question** finds permissions, and by them it is answered. -/
theorem startFrom_ask (question : Question) (rel : Relation S Q) (trust : Trust) :
    (question.ask site).startFrom rel trust =
      rel.outcome site question.isStrict trust (question.answer site rel) := by
  cases question with
  | permissions =>
    rw [Question.ask, startFrom_permissions_eq]
    rfl
  | query => exact startFrom_restrictedQuery
  | count => exact startFrom_count
  | hasRows =>
    show (Relation.hasRows site).startFrom rel trust = _
    unfold Relation.hasRows
    rw [RunOn.startFrom_bind, startFrom_count, outcome, outcome]
    dsimp only [Question.isStrict]
    rcases rel.found site false trust with panic | found <;> rfl
  | fetch =>
    -- Each record inherits the restriction of the relation, which keeping permissions leaves alone.
    refine startFrom_restrictedQuery_bind (fun query => (site.store.fetch query).map fun row =>
      Guarded.inheriting rel.model row rel.binding.restriction) fun query found => ?_
    rw [RunOn.startFrom_bind, RunOn.startFrom_object, keeping, ← Binding.restriction_keeping found]
    rfl
  | build values =>
    show (buildPermitted site values).startFrom rel trust = _
    unfold buildPermitted
    rw [RunOn.startFrom_bind, startFrom_enforced_eq, outcome]
    dsimp only [Question.isStrict]
    rcases rel.found site false trust with panic | _ | perms
    · rfl
    · rfl
    · dsimp only [Except.map, Question.answer, Option.elim_some]
      cases site.config.strongParameters <;> rfl

/-- If finding permissions panics, a question leaves the relation as it was. -/
theorem ask_of_panic (question : Question) {panic : Panic}
    (panicked : rel.found site question.isStrict trust = .error panic) :
    (question.ask site).startFrom rel trust = ((.error panic, rel), trust) := by
  rw [startFrom_ask, outcome, panicked]
  rfl

/-- After a question that found permissions the relation knows them. -/
theorem memo_ask (question : Question) {perms : Permissions Q}
    (finds : rel.found site question.isStrict trust = .ok (some perms)) :
    ((question.ask site).startFrom rel trust).1.2.binding.memo = some perms := by
  rw [startFrom_ask, outcome, finds]
  rfl

end Relation

end Warden
