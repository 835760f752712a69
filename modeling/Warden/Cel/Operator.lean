import Warden.Cel.Expr
import Warden.Cel.Fault
/-! # Operators
What the operators of expressions do with values. Integers are calculated with integers of their
own kind, or with binary64 as binary64; a quotient or remainder by zero panics, as does a result
that does not fit. -/

namespace Warden

namespace Cel

open Warden.Cel.Value

/-- A signed result, which has to fit. -/
def checkedInt (operation : String) (n : Int) : Outcome Value :=
  if minWord ≤ n ∧ n ≤ maxWord then .ok (.int n)
  else .error (.panic ("attempt to " ++ operation ++ " with overflow"))

/-- An unsigned result, which has to fit. -/
def checkedUint (operation : String) (n : Int) : Outcome Value :=
  if 0 ≤ n ∧ n ≤ maxUnsigned then .ok (.uint n.toNat)
  else .error (.panic ("attempt to " ++ operation ++ " with overflow"))

namespace Arithmetic

/-- The operation on integers; quotients are rounded toward zero. -/
def onIntegers (checked : String → Int → Outcome Value) (a b : Int) : Arithmetic → Outcome Value
  | .add => checked "add" (a + b)
  | .sub => checked "subtract" (a - b)
  | .mul => checked "multiply" (a * b)
  | .div =>
    if b = 0 then .error (.panic "attempt to divide by zero") else checked "divide" (a.tdiv b)
  | .rem =>
    if b = 0 then .error (.panic "attempt to calculate the remainder with a divisor of zero")
    else if a = minWord ∧ b = -1 then
      .error (.panic "attempt to calculate the remainder with overflow")
    else checked "calculate the remainder" (a.tmod b)

/-- The operation on binary64. -/
def onDoubles (a b : Float) : Arithmetic → Float
  | .add => a + b
  | .sub => a - b
  | .mul => a * b
  | .div => a / b
  | .rem => Exact.remainder a b

/-- The operation on two numbers or texts; texts can only be added. -/
def onScalars (operation : Arithmetic) : Value → Value → Outcome Value
  | .int a, .int b => operation.onIntegers checkedInt a b
  | .uint a, .uint b => operation.onIntegers checkedUint a b
  | .double a, .double b => .ok (.double (operation.onDoubles a b))
  | .int a, .double b => .ok (.double (operation.onDoubles (Float.ofInt a) b))
  | .double a, .int b => .ok (.double (operation.onDoubles a (Float.ofInt b)))
  | .uint a, .double b => .ok (.double (operation.onDoubles (Float.ofNat a) b))
  | .double a, .uint b => .ok (.double (operation.onDoubles a (Float.ofNat b)))
  | .text a, .text b => if operation = .add then .ok (.text (a ++ b)) else .error .failed
  | _, _ => .error .failed

/-- The operation on two values. Lists and maps can be added, too; of a key that both maps have, the
right entry counts. -/
def apply (operation : Arithmetic) (a b : Value) : Making Value :=
  match operation, a, b with
  | .add, .list _ a, .list _ b => Making.list (a ++ b)
  | .add, .map _ a, .map _ b =>
    Making.map (b.foldl (fun entries entry => put entries entry.1 entry.2) a)
  | _, _, _ => operation.onScalars a b

end Arithmetic

/-- Whether a text occurs inside another one. -/
def occursIn (part whole : List Char) : Bool :=
  part.isPrefixOf whole || match whole with
    | [] => false
    | _ :: rest => occursIn part rest

namespace Relation

/-- A comparison by order; values without order are an error. -/
def ordered (accept : Ordering → Bool) (a b : Value) : Outcome Value :=
  match compare? a b with
  | some order => .ok (.bool (accept order))
  | none => .error .failed

/-- Whether a value is contained in another one: a text in a text, an item in a list, a key in a
map. -/
def contained : Value → Value → Outcome Value
  | .text part, .text whole => .ok (.bool (occursIn part.toList whole.toList))
  | item, .list _ items => .ok (.bool (items.any fun candidate => equal candidate item))
  | value, .map _ entries =>
    .ok (.bool (match key? value with
      | some key => (valueAt? entries key).isSome
      | none => false))
  | _, _ => .error .failed

/-- The comparison of two values. -/
def apply (relation : Relation) (a b : Value) : Outcome Value :=
  match relation with
  | .lt => ordered (· == .lt) a b
  | .le => ordered (· != .gt) a b
  | .gt => ordered (· == .gt) a b
  | .ge => ordered (· != .lt) a b
  | .eq => .ok (.bool (equal a b))
  | .ne => .ok (.bool (!equal a b))
  | .isIn => contained a b

end Relation

/-- A sign in front of a value. -/
def Sign.apply (sign : Sign) (value : Value) : Outcome Value :=
  match sign, value with
  | .not, value => .ok (.bool (!truthy value))
  | .notNot, value => .ok (.bool (truthy value))
  | .minus, .int n => checkedInt "negate" (-n)
  | .minus, .double x => .ok (.double (-x))
  | .minusMinus, .int n => .ok (.int n)
  | .minusMinus, .uint n => .ok (.uint n)
  | .minusMinus, .double x => .ok (.double x)
  | _, _ => .error .failed

/-- The character of one byte at a byte position of a text, if one starts there. -/
def byteAt? (position : Nat) : List Char → Option Char
  | [] => none
  | c :: rest =>
    if position = 0 then (if c.utf8Size = 1 then some c else none)
    else if position < c.utf8Size then none
    else byteAt? (position - c.utf8Size) rest

namespace Value

/-- The item or entry at an index. Beyond the ends there is null. -/
def item : Value → Value → Outcome Value
  | .list _ items, .int n =>
    .ok (if n < 0 then .null else (items[n.toNat]?).getD .null)
  | .text s, .int n =>
    .ok (if n < 0 then .null
      else match byteAt? n.toNat s.toList with
        | some c => .text (String.singleton c)
        | none => .null)
  | .map _ entries, index =>
    match key? index with
    | some key => .ok ((find? entries key).getD .null)
    | none => .error .failed
  | _, _ => .error .failed

end Value

end Cel

end Warden
