import Warden.Trust
/-! # Errors
The ways in which an operation can refuse. Each error has a code and a status for clients and a
text for people. A refused save is not an error by itself: it is a `Refusal`, which names the field
at fault and becomes an error only where a caller asks for one. An operation that reads conditions
may also panic instead of refusing, which is a `Failure`. -/

namespace Warden

/-- Why an operation did not return a result. -/
inductive Error where
  /-- A permission question about an object that is bound to no subject. -/
  | unprotectedAccess
  /-- A field value that the subject may not write. -/
  | accessDenied (field message : String)
  /-- A policy that cannot be read or installed. -/
  | policy (message : String)
  /-- A condition that is no expression, or that cannot be evaluated. -/
  | expression (message : String)
  /-- A field that its table does not have. -/
  | unknownField (table field : String)
  /-- A schema that describes no tables. -/
  | schema (message : String)
  /-- A configuration that cannot be read. -/
  | config (message : String)
  /-- A request that the storage layer refuses. -/
  | storage (message : String)
  /-- A text that is no document. -/
  | document
  /-- A value of the wrong shape. -/
  | shape
  deriving DecidableEq, Repr

namespace Error

/-- The code that clients see. -/
def code : Error → String
  | .unprotectedAccess => "UNPROTECTED_ACCESS"
  | .accessDenied .. => "ACCESS_DENIED"
  | .policy _ => "PERMISSION_PARSE_ERROR"
  | .expression _ => "CEL_EXPRESSION_ERROR"
  | .unknownField .. => "UNKNOWN_FIELD"
  | .schema _ => "SCHEMA_PARSE_ERROR"
  | .config _ => "CONFIG_ERROR"
  | .storage _ => "STORAGE_ERROR"
  | .document => "YAML_ERROR"
  | .shape => "JSON_ERROR"

/-- The status of a response that reports the error: 403 for a denial, 400 for faulty input, 500
for a fault of the application. -/
def status : Error → Nat
  | .accessDenied .. => 403
  | .policy _ | .expression _ | .unknownField .. | .schema _ | .document | .shape => 400
  | .unprotectedAccess | .config _ | .storage _ => 500

/-- The text of the error; reading errors have none of their own. -/
def message? : Error → Option String
  | .unprotectedAccess => some "unprotected entity detected: use \x60restrict\x60 to protect it"
  | .accessDenied field message => some ("access denied for field '" ++ field ++ "': " ++ message)
  | .policy message => some ("permission parse error: " ++ message)
  | .expression message => some ("CEL expression error: " ++ message)
  | .unknownField table field => some ("unknown field '" ++ field ++ "' on table '" ++ table ++ "'")
  | .schema message => some ("schema parse error: " ++ message)
  | .config message => some ("config error: " ++ message)
  | .storage message => some ("storage error: " ++ message)
  | .document => none
  | .shape => none

end Error

/-- Why an operation that reads conditions did not return a result. -/
inductive Failure where
  /-- It refuses. -/
  | refused (error : Error)
  /-- It panics. -/
  | panicked (panic : Panic)
  deriving DecidableEq, Repr

instance : MonadLift (Except Error) (Except Failure) := ⟨Except.mapError .refused⟩

/-- A refused save: the first field that stands in its way. -/
structure Refusal where
  /-- The key under which a message is looked up. -/
  key : String
  /-- The field at fault. -/
  field : String
  /-- The text for people. -/
  message : String
  deriving DecidableEq, Repr

namespace Refusal

/-- The key of every refusal. -/
def invalidKey : String := "guard.invalid"

/-- The text used when the application brings none of its own. -/
def defaultMessage (_key field : String) : String :=
  "access denied for field '" ++ field ++ "'"

/-- A text with places marked for the key and the field, filled in. -/
def fill (template key field : String) : String :=
  (template.replace "\x7bkey\x7d" key).replace "\x7bfield\x7d" field

/-- The refusal of a field, its text looked up by key and field. -/
def ofField (lookup : String → String → String) (field : String) : Refusal :=
  { key := invalidKey, field, message := lookup invalidKey field }

/-- A refusal as an error. -/
def toError (refusal : Refusal) : Error :=
  .accessDenied refusal.field refusal.message

end Refusal

end Warden
