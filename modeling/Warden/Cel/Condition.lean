import Warden.Cel.Eval
import Warden.Constraint
import Warden.Error
/-! # Conditions
A condition is an expression over the value to be checked, `value`, and what is known of the
subject, `auth`. It is meant to be true or false; as a constraint it accepts the values for which it
is true, so that a condition that fails or is no truth value accepts nothing. Already the reading of
a condition may panic.

The language of conditions belongs to a library of its own. Constraints ask an **evaluation** of it
whether a condition is satisfied (`Cel.Evaluation`), whichever evaluation that is. The one at hand,
`Condition.decide`, lacks some functions of the library (`Cel.omittedFunctions`). -/

namespace Warden

namespace Cel

/-- An expression with the text it was read from. -/
structure Condition where
  /-- The text. -/
  source : String
  /-- The expression. -/
  expr : Expr
  deriving Repr

/-- Why a condition is neither true nor false. -/
inductive Undecided where
  /-- It has no value. -/
  | failed
  /-- It has another kind of value. -/
  | notBool
  /-- Its evaluation panics. -/
  | panic (message : String)
  deriving DecidableEq, Repr

/-- Why an expression has no value, as a reason why a condition is undecided. -/
def Fault.undecided : Fault → Undecided
  | .panic message => .panic message
  | _ => .failed

namespace Condition

/-- Read a condition. -/
def ofText (source : String) : Except Failure Condition :=
  match Expr.ofText source with
  | .ok expr => .ok { source, expr }
  | .error .malformed => .error (.refused (.expression source))
  | .error (.panic message) => .error (.panicked ⟨message⟩)

/-- Whether a value satisfies a condition. -/
def decide (condition : Condition) (value auth : Warden.Value) : Except Undecided Bool :=
  match (condition.expr.eval [("value", .ofValue value), ("auth", .ofValue auth)]).run 0 with
  | .ok (.bool b, _) => .ok b
  | .ok _ => .error .notBool
  | .error fault => .error fault.undecided

end Condition

/-- **How conditions are evaluated.** -/
class Evaluation where
  /-- Whether a value satisfies a condition for a subject, or why that is undecided. -/
  decide (condition : Condition) (value auth : Warden.Value) : Except Undecided Bool

instance : Evaluation := ⟨Condition.decide⟩

/-- The condition as a test of values. -/
def Condition.test [Evaluation] (condition : Condition) (auth value : Warden.Value) :
    Except Panic Bool :=
  match Evaluation.decide condition value auth with
  | .ok b => .ok b
  | .error (.panic message) => .error ⟨message⟩
  | .error _ => .ok false

end Cel

/-- The values that satisfy a condition for a subject. -/
def Constraint.ofCondition [Cel.Evaluation] (condition : Cel.Condition) (auth : Value) :
    Constraint :=
  .predicate { label := some condition.source, test := fun _ value => condition.test auth value }

/-- The values that satisfy the condition of a text for a subject. -/
def Constraint.ofExpression [Cel.Evaluation] (source : String) (auth : Value) :
    Except Failure Constraint := do
  return .ofCondition (← Cel.Condition.ofText source) auth

end Warden
