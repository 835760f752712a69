import Warden.Describe
/-! # Actions
What a rule grants or withdraws. Reading, creating and updating concern single fields, destroying
concerns a whole record; every other name is an action of the application's own. -/

namespace Warden

/-- An action that permissions speak about. -/
inductive Action where
  /-- Reading a field. -/
  | read
  /-- Giving a field of a new record its value. -/
  | create
  /-- Changing a field of a stored record. -/
  | update
  /-- Deleting a record. -/
  | destroy
  /-- Any other action, by its name. -/
  | custom (name : String)
  deriving DecidableEq, Repr, Inhabited

namespace Action

/-- The action of a name. The four built-in names are recognised in any case, and `view` is an
older name of `read`; any other name is kept as written. -/
def ofName (name : String) : Action :=
  match name.toLower with
  | "read" | "view" => .read
  | "create" => .create
  | "update" => .update
  | "destroy" => .destroy
  | _ => .custom name

/-- The name of an action. -/
def name : Action → String
  | .read => "read"
  | .create => "create"
  | .update => "update"
  | .destroy => "destroy"
  | .custom name => name

/-- The description of an action. -/
def describe : Action → String
  | .read => "Read"
  | .create => "Create"
  | .update => "Update"
  | .destroy => "Destroy"
  | .custom name => Describe.tagged "Custom" (Describe.quoted name)

end Action

end Warden
