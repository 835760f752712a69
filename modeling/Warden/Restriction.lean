import Warden.Error
import Warden.Permissions
/-! # Restrictions
An object *bound* to a subject is seen through that subject's permissions; an unbound object is
not protected. A subject may well be the absent one: being bound to nobody is not being unbound. A
`Binding` also keeps the permissions that were worked out for its subject, so that they are worked
out once. -/

namespace Warden

/-- The subject that an object is bound to. -/
inductive Restriction (S : Type) where
  /-- No subject. -/
  | unbound
  /-- Bound to a subject. -/
  | bound (subject : S)
  deriving DecidableEq, Repr

namespace Restriction

variable {S : Type}

/-- The subject; asking for it on an unbound object is an error. -/
def subject : Restriction S → Except Error S
  | .unbound => .error .unprotectedAccess
  | .bound subject => .ok subject

/-- Whether there is a subject. -/
def hasSubject : Restriction S → Bool
  | .unbound => false
  | .bound _ => true

/-- Whether permissions are enforced: there is a subject, and execution is not trusted. -/
def isEnforced (restriction : Restriction S) (trust : Trust) : Bool :=
  restriction.hasSubject && !trust.isActive

/-- The description of a restriction. -/
def describe (subjectText : S → String) (restriction : Restriction S) : String :=
  Describe.record "Restriction"
    [("subject", match restriction with
      | .unbound => Describe.option none
      | .bound subject => Describe.option (some (subjectText subject))),
     ("bound", Describe.bool restriction.hasSubject)]

end Restriction

/-- A restriction with the permissions of its subject, once they are known. -/
structure Binding (S Q : Type) where
  /-- The subject that the object is bound to. -/
  restriction : Restriction S := .unbound
  /-- The permissions of that subject, if they have been worked out. -/
  memo : Option (Permissions Q) := none

namespace Binding

variable {S Q : Type}

/-- A binding whose permissions are still to be worked out. -/
def fresh (restriction : Restriction S) : Binding S Q := { restriction }

/-- Bind to a subject; what was known of the former one is forgotten. -/
def restrict (_binding : Binding S Q) (subject : S) : Binding S Q := fresh (.bound subject)

/-- Bind to no subject. -/
def unrestrict (_binding : Binding S Q) : Binding S Q := fresh .unbound

/-- The same restriction with nothing known. -/
def forget (binding : Binding S Q) : Binding S Q := fresh binding.restriction

/-- The permissions of the subject, worked out at most once. -/
def permissions (evaluate : S → Run (Permissions Q)) :
    RunOn (Binding S Q) (Except Error (Permissions Q)) := do
  let binding ← RunOn.object
  match binding.restriction with
  | .unbound => return .error .unprotectedAccess
  | .bound subject =>
    match binding.memo with
    | some perms => return .ok perms
    | none =>
      let perms ← Run.beside (evaluate subject)
      RunOn.change fun binding => { binding with memo := some perms }
      return .ok perms

/-- The permissions to be enforced; none if there is no subject or execution is trusted. -/
def enforced (evaluate : S → Run (Permissions Q)) :
    RunOn (Binding S Q) (Option (Permissions Q)) := do
  let binding ← RunOn.object
  let trust ← Run.beside Run.trust
  if binding.restriction.isEnforced trust then
    match ← permissions evaluate with
    | .ok perms => return some perms
    | .error _ => return none
  else return none

end Binding

end Warden
