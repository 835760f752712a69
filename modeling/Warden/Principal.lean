import Warden.Describe
import Warden.Error
/-! # Principals
Policies need to know little of a subject: who it is, which roles it has, whether it counts as
authenticated, and what expressions see of it. An `AuthContext` is the usual subject; a subject that
is not logged in is no subject at all, `none`. -/

namespace Warden

/-- What policies ask of a subject. -/
class Principal (S : Type) where
  /-- The identity of the subject, unless it is anonymous. -/
  sub : S → Option String
  /-- Whether the subject has a role. -/
  hasRole : S → String → Bool
  /-- Whether the subject counts as authenticated; it does if it has an identity. -/
  isAuthenticated : S → Bool := fun subject => (sub subject).isSome
  /-- What expressions see of the subject; its identity, if it has one. -/
  authValue : S → Value := fun subject =>
    match sub subject with
    | none => .object []
    | some sub => .object [("sub", .string sub)]

/-- The absent subject has no identity and no role, and expressions see nothing of it. Whether a
subject is authenticated is a question of its identity only. -/
instance {S : Type} [Principal S] : Principal (Option S) where
  sub subject := subject.bind Principal.sub
  hasRole subject role :=
    match subject with
    | none => false
    | some subject => Principal.hasRole subject role
  authValue
    | none => .object []
    | some subject => Principal.authValue subject

/-- What kind of caller authenticated. -/
inductive PrincipalType where
  /-- A person. -/
  | endUser
  /-- A program with a key. -/
  | apiKey
  deriving DecidableEq, Repr, Inhabited

namespace PrincipalType

/-- The name of a kind in documents. -/
def name : PrincipalType → String
  | .endUser => "end_user"
  | .apiKey => "api_key"

/-- The kind of a name. -/
def ofName? : String → Option PrincipalType
  | "end_user" => some .endUser
  | "api_key" => some .apiKey
  | _ => none

/-- Read a kind: its name, alone or as the only key of a field map with null. -/
def ofValue? : Value → Option PrincipalType
  | .string name => ofName? name
  | .object [(name, .null)] => ofName? name
  | _ => none

/-- The description of a kind. -/
def describe : PrincipalType → String
  | .endUser => "EndUser"
  | .apiKey => "ApiKey"

end PrincipalType

/-- What is known about a caller. -/
structure AuthContext where
  /-- The identity of the person or key; none for an anonymous caller. -/
  sub : Option String := none
  /-- The roles of the caller. -/
  roles : List String := []
  /-- The kind of caller. -/
  principalType : PrincipalType := .endUser
  deriving DecidableEq, Repr, Inhabited

namespace AuthContext

/-- A person. -/
def ofUser (sub : String) (roles : List String) : AuthContext := { sub := some sub, roles }

/-- A program with a key. -/
def ofKey (key : String) (roles : List String) : AuthContext :=
  { sub := some key, roles, principalType := .apiKey }

/-- A caller about whom nothing is known. -/
def anonymous : AuthContext := {}

/-- Roles as a value. -/
def rolesValue (roles : List String) : Value := .array (roles.map Value.string)

instance : Principal AuthContext where
  sub := AuthContext.sub
  hasRole context role := context.roles.contains role
  authValue context :=
    let known : FieldValues :=
      [("principal_type", .string context.principalType.name),
       ("roles", rolesValue context.roles)]
    .object (match context.sub with
      | none => known
      | some sub => known.insert "sub" (.string sub))

/-- The document of a context. -/
def toValue (context : AuthContext) : Value :=
  .object
    [("principal_type", .string context.principalType.name),
     ("roles", rolesValue context.roles),
     ("sub", (context.sub.map Value.string).getD .null)]

/-- The texts of a list of texts. -/
def textsOf? : List Value → Option (List String)
  | [] => some []
  | value :: rest => do
    let text ← value.text?
    let texts ← textsOf? rest
    some (text :: texts)

/-- Read an identity; null counts as absent. -/
def subOf? : Value → Option (Option String)
  | .null => some none
  | value => value.text?.map some

/-- Read a part that has a default. -/
def partOf? {α : Type} (default : α) (read : Value → Option α) : Option Value → Option α
  | none => some default
  | some value => read value

/-- Read a context from its three parts. -/
def ofParts (sub roles principalType : Option Value) : Except Error AuthContext :=
  let context := do
    let sub ← partOf? none subOf? sub
    let roles ← partOf? [] (fun value => value.items?.bind textsOf?) roles
    let principalType ← partOf? .endUser PrincipalType.ofValue? principalType
    some { sub, roles, principalType }
  match context with
  | some context => .ok context
  | none => .error .shape

/-- Read a context from a field map, whose other entries are ignored, or from a list of one to three
parts in this order. -/
def ofValue? : Value → Except Error AuthContext
  | .object fields =>
    ofParts (Fields.get? fields "sub") (Fields.get? fields "roles")
      (Fields.get? fields "principal_type")
  | .array [sub] => ofParts (some sub) none none
  | .array [sub, roles] => ofParts (some sub) (some roles) none
  | .array [sub, roles, principalType] => ofParts (some sub) (some roles) (some principalType)
  | _ => .error .shape

/-- Read a context that may be absent. -/
def optionOfValue? : Value → Except Error (Option AuthContext)
  | .null => .ok none
  | value => (ofValue? value).map some

/-- The description of a context. -/
def describe (context : AuthContext) : String :=
  Describe.record "AuthContext"
    [("sub", Describe.option (context.sub.map Describe.quoted)),
     ("roles", Describe.list (context.roles.map Describe.quoted)),
     ("principal_type", context.principalType.describe)]

end AuthContext

end Warden
