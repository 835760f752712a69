import Warden.Cel.Value
/-! # Faults
Why an expression has no value. A missing key is told apart from every other failure, because the
function `has` asks about it; a panic ends the evaluation of the constraint as a whole. An
evaluation counts the lists and maps that it makes, so that each of them has an identity. -/

namespace Warden

namespace Cel

/-- Why an expression has no value. -/
inductive Fault where
  /-- A name that an object does not have. -/
  | noSuchKey (name : String)
  /-- Any other failure. -/
  | failed
  /-- A calculation that panics. -/
  | panic (message : String)
  deriving DecidableEq, Repr

/-- The outcome of an evaluation. -/
abbrev Outcome (α : Type) : Type := Except Fault α

namespace Outcome

/-- A value that may be absent. -/
def ofOption {α : Type} : Option α → Outcome α
  | some value => .ok value
  | none => .error .failed

end Outcome

/-- The outcome of an evaluation that makes lists and maps; the state is their number so far. -/
abbrev Making (α : Type) : Type := StateT Nat Outcome α

namespace Making

/-- A failure as such, without telling a missing key. -/
def blurred {α : Type} (action : Making α) : Making α := fun made =>
  match action made with
  | .error (.noSuchKey _) => .error .failed
  | outcome => outcome

/-- The identity of a new list or map. -/
def identity : Making Nat := modifyGet fun made => (made + 1, made + 1)

/-- A new list. -/
def list (items : List Value) : Making Value := return .list (← identity) items

/-- A new map. -/
def map (entries : List (Key × Value)) : Making Value := return .map (← identity) entries

end Making

end Cel

end Warden
