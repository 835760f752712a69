import Warden.Evaluation
/-! # Guarded records
A guarded record is a row of a model that remembers its subject. Reading, saving and deleting it
respects the subject's permissions, unless there is no subject or execution is trusted. The
permissions are worked out when they are first needed, for the record as it is then, and kept until
the subject changes. -/

namespace Warden

/-- A record of a model, seen by a subject. -/
structure Guarded (S Q : Type) where
  /-- The model. -/
  model : Model
  /-- The record. -/
  row : Row
  /-- The subject. -/
  binding : Binding S Q := {}

namespace Guarded

variable {S Q : Type}

/-- A record seen by nobody in particular. -/
def wrap (model : Model) (row : Row) : Guarded S Q := { model, row }

/-- A record seen by whom another object is bound to. -/
def inheriting (model : Model) (row : Row) (restriction : Restriction S) : Guarded S Q :=
  { model, row, binding := .fresh restriction }

/-- A copy, whose permissions are still to be worked out. -/
def clone (record : Guarded S Q) : Guarded S Q :=
  { record with binding := record.binding.forget }

/-- Bind to a subject. -/
def restrict (record : Guarded S Q) (subject : S) : Guarded S Q :=
  { record with binding := record.binding.restrict subject }

/-- Bind to no subject. -/
def unrestrict (record : Guarded S Q) : Guarded S Q :=
  { record with binding := record.binding.unrestrict }

/-- Change the record without any check; known permissions stay. -/
def modifyRow (record : Guarded S Q) (change : Row → Row) : Guarded S Q :=
  { record with row := change record.row }

/-- Whether the permissions have been worked out. -/
def isEvaluated (record : Guarded S Q) : Bool := record.binding.memo.isSome

/-- The value of the primary key, without any check. -/
def keyValue (record : Guarded S Q) : Option Value :=
  record.row.get? record.model.table.primaryKey

variable [Query Q]

/-- The permissions of the subject for the record. -/
def permissions (site : Site S Q) : RunOn (Guarded S Q) (Except Error (Permissions Q)) := do
  let record ← RunOn.object
  RunOn.focus Guarded.binding (fun binding record => { record with binding })
    (Binding.permissions fun subject => site.evaluate record.model subject (some record.row))

/-- The permissions to be enforced; none if there is no subject or execution is trusted. -/
def enforced (site : Site S Q) : RunOn (Guarded S Q) (Option (Permissions Q)) := do
  let record ← RunOn.object
  RunOn.focus Guarded.binding (fun binding record => { record with binding })
    (Binding.enforced fun subject => site.evaluate record.model subject (some record.row))

/-! ## Reading -/

/-- The value of a field, if the subject may read it. The primary key may always be read. -/
def read (site : Site S Q) (field : String) : RunOn (Guarded S Q) (Option Value) := do
  let perms ← enforced site
  let record ← RunOn.object
  match perms with
  | none => return record.row.get? field
  | some perms =>
    if record.model.table.isPrimaryKey field || perms.isReadable field then
      return record.row.get? field
    else return none

/-- The values of several fields, as far as there are any that may be read. -/
def readEach (site : Site S Q) : List String → RunOn (Guarded S Q) FieldValues
  | [] => return []
  | field :: rest => do
    let value ← read site field
    let others ← readEach site rest
    match value with
    | none => return others
    | some value => return others.insert field value

/-- The values of the fields of the table that the subject may read. -/
def readableValues (site : Site S Q) : RunOn (Guarded S Q) FieldValues := do
  readEach site (← RunOn.object).model.fields

/-! ## Asking for permission -/

/-- Whether the record may be created with its pending changes. -/
def isCreatable (site : Site S Q) : RunOn (Guarded S Q) (Except Error Bool) := do
  let changes := (← RunOn.object).row.changes
  match ← permissions site with
  | .error e => return .error e
  | .ok perms => return .ok (← Run.beside (perms.isCreatable (some changes)))

/-- Whether the record may be updated with its pending changes. -/
def isUpdatable (site : Site S Q) : RunOn (Guarded S Q) (Except Error Bool) := do
  let changes := (← RunOn.object).row.changes
  match ← permissions site with
  | .error e => return .error e
  | .ok perms => return .ok (← Run.beside (perms.isUpdatable (some changes)))

/-- Whether the record may be deleted. -/
def isDestroyable (site : Site S Q) : RunOn (Guarded S Q) (Except Error Bool) := do
  return (← permissions site).map Permissions.destroyable

/-- Whether an action is allowed on a field, or on any field if none is given. -/
def allows (site : Site S Q) (action : Action) (field : Option String) :
    RunOn (Guarded S Q) (Except Error Bool) := do
  return (← permissions site).map fun perms => perms.allows action field

/-! ## Saving and deleting -/

/-- Check a record before it is saved: a new one needs permission to create, a stored one to
update, the pending changes. A refusal names the first field at fault. -/
def validateWith (site : Site S Q) (lookup : String → String → String) :
    RunOn (Guarded S Q) (Except Refusal Unit) := do
  match ← enforced site with
  | none => return .ok ()
  | some perms =>
    let row := (← RunOn.object).row
    let rejected ← Run.beside <|
      if row.isNew then perms.firstUncreatable row.changes else perms.firstUnupdatable row.changes
    match rejected with
    | none => return .ok ()
    | some field => return .error (Refusal.ofField lookup field)

/-- Check a record before it is saved, with the usual texts. -/
def validate (site : Site S Q) : RunOn (Guarded S Q) (Except Refusal Unit) :=
  validateWith site Refusal.defaultMessage

/-- Whether the record may be deleted; a record without enforced permissions may. -/
def allowsDestroy (site : Site S Q) : RunOn (Guarded S Q) Bool := do
  match ← enforced site with
  | none => return true
  | some perms => return perms.destroyable

/-- Assign the values that the subject may write, and return the fields left out. All values are
assigned if permissions are not enforced or the settings do not limit new values. -/
def assignPermitted (site : Site S Q) (values : FieldValues) :
    RunOn (Guarded S Q) (List String) := do
  let action := if (← RunOn.object).row.isNew then Action.create else Action.update
  let (rejected, permitted) ← match ← enforced site with
    | none => pure ([], values)
    | some perms =>
      if site.config.strongParameters then
        pure (values.keys.filter fun field => !perms.allows action (some field),
          perms.permitted action values)
      else pure ([], values)
  RunOn.change fun record => record.modifyRow fun row => row.setAll permitted
  return rejected

/-- Whether the record is among the rows that the subject sees. A record without key value is not,
if rows are confined. -/
def isVisible (site : Site S Q) : RunOn (Guarded S Q) Bool := do
  match ← enforced site with
  | none => return true
  | some perms =>
    match perms.relation with
    | none => return true
    | some scope =>
      let record ← RunOn.object
      match record.keyValue with
      | none => return false
      | some key =>
        let query := Query.filterEq scope record.model.table.primaryKey key
        return decide (0 < (site.store.count query).getD 0)

omit [Query Q] in
/-- The description of a guarded record. -/
def describe (subjectText : S → String) (record : Guarded S Q) : String :=
  Describe.record "Guarded"
    [("model", Describe.quoted record.model.name),
     ("entity", record.row.describe),
     ("restriction", record.binding.restriction.describe subjectText)]

end Guarded

end Warden
