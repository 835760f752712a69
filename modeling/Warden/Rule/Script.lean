import Warden.Permissions
/-! # Scripts
The body of a rule is a *script*: a program that fills permissions and may, on the way, look at the
depth of trusted execution, check a value against a constraint, count the rows that a subject sees of
some model, do a part of its work inside one more guard, and panic. What comes after a look, a check
or a count depends on the answer. Keeping the body as data, instead of as an arbitrary function,
makes visible everything that a rule can do while permissions are worked out. -/

namespace Warden

/-- A program that fills permissions over queries of type `Q` on behalf of subjects of type `S`. -/
inductive Script (S Q : Type) where
  /-- Nothing more to do. -/
  | done
  /-- Panic with a text. -/
  | abort (message : String)
  /-- Grant an action. -/
  | can (action : Action) (specs : List FieldSpec) (next : Script S Q)
  /-- Withdraw an action. -/
  | cannot (action : Action) (specs : List FieldSpec) (next : Script S Q)
  /-- Register a narrowing of queries. -/
  | scope (narrow : Q → Q) (next : Script S Q)
  /-- Go on with the depth of trusted execution. -/
  | depth (next : Nat → Script S Q)
  /-- Go on with whether a value satisfies a constraint. -/
  | check (constraint : Constraint) (value : Value) (next : Bool → Script S Q)
  /-- Do a part of the work inside one more guard, then go on. -/
  | insecurely (body : Script S Q) (next : Script S Q)
  /-- Go on with the number of rows that a subject sees of the model of a name. -/
  | count (model : String) (subject : S) (next : Nat → Script S Q)

/-- How the rows are counted that a subject sees of the model of a name. -/
abbrev Census (S : Type) : Type := String → S → Run Nat

namespace Script

variable {S Q : Type}

/-- The empty script stands for any other. -/
instance : Inhabited (Script S Q) := ⟨.done⟩

/-- One script after another. -/
def andThen : Script S Q → Script S Q → Script S Q
  | .done, rest => rest
  | .abort message, _ => .abort message
  | .can action specs next, rest => .can action specs (next.andThen rest)
  | .cannot action specs next, rest => .cannot action specs (next.andThen rest)
  | .scope narrow next, rest => .scope narrow (next.andThen rest)
  | .depth next, rest => .depth fun n => (next n).andThen rest
  | .check constraint value next, rest =>
    .check constraint value fun passed => (next passed).andThen rest
  | .insecurely body next, rest => .insecurely body (next.andThen rest)
  | .count model subject next, rest => .count model subject fun n => (next n).andThen rest

/-- Grant one action. -/
def grant (action : Action) (specs : List FieldSpec) : Script S Q := .can action specs .done

/-- Withdraw one action. -/
def withdraw (action : Action) (specs : List FieldSpec) : Script S Q := .cannot action specs .done

/-- Register one narrowing. -/
def narrow (change : Q → Q) : Script S Q := .scope change .done

/-- Several scripts in order. -/
def sequence : List (Script S Q) → Script S Q
  | [] => .done
  | script :: rest => script.andThen (sequence rest)

/-- Run a script. -/
def run (census : Census S) : Script S Q → Permissions Q → Run (Permissions Q)
  | .done, perms => return perms
  | .abort message, _ => Run.abandon message
  | .can action specs next, perms => next.run census (perms.can action specs)
  | .cannot action specs next, perms => next.run census (perms.cannot action specs)
  | .scope narrow next, perms => next.run census (perms.scope narrow)
  | .depth next, perms => do
    let depth ← Run.depth
    (next depth).run census perms
  | .check constraint value next, perms => do
    let passed ← constraint.check value
    (next passed).run census perms
  | .insecurely body next, perms => do
    let perms ← Run.insecurely (body.run census perms)
    next.run census perms
  | .count model subject next, perms => do
    let rows ← census model subject
    (next rows).run census perms

end Script

end Warden
