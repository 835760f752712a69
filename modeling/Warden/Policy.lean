import Warden.Principal
import Warden.Value
/-! # Policies
A policy declares permissions table by table. A table has a list of rules; a rule says for which
roles it counts, which fields are granted for an action and which withdrawn, and to which rows the
subject is confined. -/

namespace Warden

/-- What a rule asks of a subject. -/
inductive RoleRequirement where
  /-- Nothing. -/
  | anyone
  /-- To be authenticated. -/
  | authenticated
  /-- To have a role. -/
  | role (name : String)
  deriving DecidableEq, Repr

namespace RoleRequirement

/-- The requirement of a name; two names are special. -/
def ofName (name : String) : RoleRequirement :=
  match name with
  | "public" => .anyone
  | "authenticated" => .authenticated
  | other => .role other

/-- The name of a requirement. -/
def name : RoleRequirement → String
  | .anyone => "public"
  | .authenticated => "authenticated"
  | .role name => name

/-- The name of the kind of a requirement. -/
def kind : RoleRequirement → String
  | .anyone => "public"
  | .authenticated => "authenticated"
  | .role _ => "role"

/-- Whether a subject meets a requirement. -/
def isMetBy {S : Type} [Principal S] (requirement : RoleRequirement) (subject : S) : Bool :=
  match requirement with
  | .anyone => true
  | .authenticated => Principal.isAuthenticated subject
  | .role name => Principal.hasRole subject name

/-- Whether a subject meets one of several requirements; none at all are met by everyone. -/
def anyMetBy {S : Type} [Principal S] (requirements : List RoleRequirement) (subject : S) : Bool :=
  requirements.isEmpty || requirements.any fun requirement => requirement.isMetBy subject

end RoleRequirement

/-- Limits of a field's values. -/
structure RangeSpec where
  /-- The lower limit. -/
  min : Option Value := none
  /-- The upper limit. -/
  max : Option Value := none
  /-- Whether the upper limit itself is ruled out. -/
  exclusive : Bool := false

/-- What a rule demands of a field's values. -/
inductive ConstraintSpec where
  /-- To satisfy a condition. -/
  | condition (source : String)
  /-- To lie within limits. -/
  | range (range : RangeSpec)
  /-- To equal a value. -/
  | literal (value : Value)

/-- The fields that a rule names for an action. -/
inductive FieldList where
  /-- Every field, or none. -/
  | flag (value : Bool)
  /-- One field, or every field if the name is a star. -/
  | name (name : String)
  /-- Several fields. -/
  | names (names : List String)
  /-- Several fields, each with what is demanded of its values. -/
  | constrained (fields : Fields (Option ConstraintSpec))

namespace FieldList

/-- The name that means every field. -/
def star : String := "*"

/-- Whether every field is meant. -/
def isAll : FieldList → Bool
  | .flag value => value
  | .name field => field == star
  | _ => false

/-- The named fields. -/
def fieldNames : FieldList → List String
  | .flag _ => []
  | .name field => if field == star then [] else [field]
  | .names fields => fields
  | .constrained fields => fields.keys

end FieldList

/-- The rows to which a rule confines a subject. -/
inductive ScopeSpec where
  /-- No row. -/
  | nothing
  /-- The rows in which a column holds the identity of the subject. -/
  | owner (column : String)
  /-- The rows in which columns have values. -/
  | matching (values : FieldValues)

/-- A rule of a policy. -/
structure PolicyRule where
  /-- For whom the rule counts; for everyone if it asks for nothing. -/
  roles : List RoleRequirement := []
  /-- The fields that are granted, by action. -/
  can : Fields FieldList := []
  /-- The fields that are withdrawn afterwards, by action. -/
  cannot : Fields FieldList := []
  /-- The rows to which the subject is confined. -/
  scope : Option ScopeSpec := none

/-- The rules of tables, by the name of the table. -/
structure Policy where
  /-- The rules of each table, in the order in which they are applied. -/
  tables : Fields (List PolicyRule) := []

namespace Policy

/-- The rules of a table, if the policy has an entry for it. -/
def rules? (policy : Policy) (table : String) : Option (List PolicyRule) :=
  policy.tables.get? table

end Policy

end Warden
