import Warden.Permissions.Access
import Warden.Query
/-! # Permissions
What one subject may do with one record, or with the records of a table: the outcome of running
the rules of a model. Rules fill it step by step.

* `Permissions.can` grants fields for an action, `Permissions.cannot` withdraws them; of several
  calls for one field the last one counts.
* Destroying concerns a whole record and is a single flag.
* `Permissions.scope` registers a narrowing of queries. The scopes together confine the rows that
  the subject sees. In a *paranoid* table a subject without any scope sees no row. -/

namespace Warden

/-- The permissions of a subject, over queries of type `Q`. -/
structure Permissions (Q : Type) where
  /-- All fields of the table. -/
  fields : List String
  /-- The table whose rows are meant. -/
  table : Table
  /-- Whether rows are hidden as long as no scope is registered. -/
  paranoid : Bool
  /-- The granted fields of each action. -/
  access : Access := []
  /-- Whether the record may be deleted. -/
  destroyable : Bool := false
  /-- The registered narrowings, first registered first. -/
  scopes : List (Q → Q) := []

namespace Permissions

variable {Q : Type}

/-- The field that a refusal names when it can name no other. -/
def baseField : String := "base"

/-- No permissions at all. -/
def none (fields : List String) (table : Table) (paranoid : Bool) : Permissions Q :=
  { fields, table, paranoid }

/-! ## Filling -/

/-- Grant an action on the specified fields, or on every field of the table if none is specified.
A field that is granted already takes the new constraint. -/
def can (perms : Permissions Q) (action : Action) (specs : List FieldSpec) : Permissions Q :=
  if action = .destroy then { perms with destroyable := true }
  else
    let granted := (perms.access.get? action).getD []
    let entries := match specs with
      | [] => perms.fields.map fun field => (field, Constraint.unconstrained)
      | specs => specs.flatMap FieldSpec.entries
    { perms with access := perms.access.set action (granted.insertAll entries) }

/-- Withdraw an action from the specified fields, or altogether if none is specified. An action
that is left without fields has no entry any more. -/
def cannot (perms : Permissions Q) (action : Action) (specs : List FieldSpec) : Permissions Q :=
  if action = .destroy then { perms with destroyable := false }
  else match specs, perms.access.get? action with
    | [], _ => { perms with access := perms.access.drop action }
    | _, .none => perms
    | specs, some granted =>
      let left := (specs.flatMap FieldSpec.names).foldl Fields.erase granted
      { perms with
        access := if left.isEmpty then perms.access.drop action
          else perms.access.set action left }

/-- Grant an action on every field. -/
def canAll (perms : Permissions Q) (action : Action) : Permissions Q := perms.can action []

/-- Withdraw an action from every field. -/
def cannotAll (perms : Permissions Q) (action : Action) : Permissions Q := perms.cannot action []

/-- Register a narrowing of queries. -/
def scope (perms : Permissions Q) (narrow : Q → Q) : Permissions Q :=
  { perms with scopes := perms.scopes ++ [narrow] }

/-! ## Questions about fields -/

/-- The fields granted for an action, if it has an entry. -/
def granted? (perms : Permissions Q) (action : Action) : Option (Fields Constraint) :=
  perms.access.get? action

/-- The fields granted for an action; none if it has no entry. -/
def granted (perms : Permissions Q) (action : Action) : Fields Constraint :=
  (perms.granted? action).getD []

/-- Whether a field may be read. -/
def isReadable (perms : Permissions Q) (field : String) : Bool :=
  (perms.granted .read).has field

/-- Whether an action is allowed on a field, or on any field if none is given. -/
def allows (perms : Permissions Q) (action : Action) (field : Option String) : Bool :=
  if action = .destroy then perms.destroyable
  else match field with
    | .none => !(perms.granted action).isEmpty
    | some field => (perms.granted action).has field

/-- The values of granted fields. -/
def permitted (perms : Permissions Q) (action : Action) (values : FieldValues) : FieldValues :=
  values.restrict fun field => (perms.granted action).has field

/-- Whether a granted field may have a value. -/
def accepts (granted : Fields Constraint) (field : String) (value : Value) : Run Bool :=
  match granted.get? field with
  | .none => return false
  | some constraint => constraint.check value

/-- Whether every field is granted for its value; stops at the first that is not. -/
def acceptsAll (granted : Fields Constraint) : FieldValues → Run Bool
  | [] => return true
  | (field, value) :: rest => do
    if ← accepts granted field value then acceptsAll granted rest else return false

/-- The first field that is not granted for its value. -/
def firstRejected (granted : Fields Constraint) : FieldValues → Run (Option String)
  | [] => return .none
  | (field, value) :: rest => do
    if ← accepts granted field value then firstRejected granted rest else return some field

/-- Whether an action is granted for values, or at all if no values are given. -/
def isModifiable (perms : Permissions Q) (action : Action) (values : Option FieldValues) :
    Run Bool :=
  let granted := perms.granted action
  if granted.isEmpty then return false
  else match values with
    | .none => return true
    | some values => acceptsAll granted values

/-- The field that stands in the way of an action. Without any granted field it is the first field
of the values, or `baseField` if there are no values. -/
def firstUnmodifiable (perms : Permissions Q) (action : Action) (values : FieldValues) :
    Run (Option String) :=
  let granted := perms.granted action
  if granted.isEmpty then return some (values.keys.head?.getD baseField)
  else firstRejected granted values

/-- Whether a record may be created with values. -/
def isCreatable (perms : Permissions Q) (values : Option FieldValues) : Run Bool :=
  perms.isModifiable .create values

/-- Whether a record may be updated with values. -/
def isUpdatable (perms : Permissions Q) (values : Option FieldValues) : Run Bool :=
  perms.isModifiable .update values

/-- The field that stands in the way of creating a record. -/
def firstUncreatable (perms : Permissions Q) (values : FieldValues) : Run (Option String) :=
  perms.firstUnmodifiable .create values

/-- The field that stands in the way of updating a record. -/
def firstUnupdatable (perms : Permissions Q) (values : FieldValues) : Run (Option String) :=
  perms.firstUnmodifiable .update values

/-! ## Questions about rows -/

variable [Query Q]

/-- The narrowings in force: the registered ones, or the narrowing to no row in a paranoid table
without any. -/
def narrowings (perms : Permissions Q) : List (Q → Q) :=
  if perms.scopes.isEmpty && perms.paranoid then [Query.none] else perms.scopes

/-- Whether rows are confined. -/
def isScoped (perms : Permissions Q) : Bool := perms.paranoid || !perms.scopes.isEmpty

/-- Narrow a query by every narrowing in turn. -/
def applyTo (perms : Permissions Q) (query : Q) : Q :=
  perms.narrowings.foldl (fun query narrow => narrow query) query

/-- The query for all rows that the subject sees, if rows are confined. -/
def relation (perms : Permissions Q) : Option Q :=
  if perms.isScoped then some (perms.applyTo (Query.base perms.table)) else .none

omit [Query Q] in
/-- The description of permissions. -/
def describe (perms : Permissions Q) : String :=
  Describe.record "PermissionBox"
    [("access", perms.access.describe),
     ("destroyable", Describe.bool perms.destroyable),
     ("scopes", toString perms.scopes.length),
     ("paranoid", Describe.bool perms.paranoid)]

end Permissions

end Warden
