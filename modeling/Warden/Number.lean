/-! # Numbers
A number is an **integer** or a **binary64**. Integers come from literals without fraction or
exponent that lie between `-2 ^ 63` and `2 ^ 64 - 1`; every other literal denotes a binary64.
The two kinds stay apart under `Number.same` (`1` is not `1.0`). `Number.compare?` compares across
them: two signed words by their values, and any other two numbers by the binary64 values nearest to
them, so that different numbers may come out as equal. -/

namespace Warden

/-- A number of a document: an exact integer or a binary64. -/
inductive Number where
  /-- An exact integer. -/
  | int (value : Int)
  /-- A binary64; documents hold finite ones only. -/
  | float (value : Float)
  deriving Repr, DecidableEq, Inhabited

/-- The smallest signed 64-bit integer. -/
def minWord : Int := -9223372036854775808

/-- The largest signed 64-bit integer. -/
def maxWord : Int := 9223372036854775807

/-- The largest unsigned 64-bit integer. -/
def maxUnsigned : Int := 18446744073709551615

namespace Number

/-- The integer, if it fits a signed 64-bit word. -/
def word? : Number → Option Int
  | .int n => if minWord ≤ n ∧ n ≤ maxWord then some n else none
  | .float _ => none

/-- The integer, if it fits an unsigned 64-bit word. -/
def unsigned? : Number → Option Nat
  | .int n => if 0 ≤ n ∧ n ≤ maxUnsigned then some n.toNat else none
  | .float _ => none

/-- The nearest binary64. -/
def toFloat : Number → Float
  | .int n => Float.ofInt n
  | .float x => x

end Number

/-- The place of a binary64 among all of them: its magnitude under its sign, so that the two zeros
share a place. -/
def Float.place (x : Float) : Int :=
  let bits := x.toBits.toNat
  let magnitude : Int := bits % Nat.pow 2 63
  if bits / Nat.pow 2 63 = 1 then -magnitude else magnitude

/-- The order of two binary64 values, that of their places; none if one is not a number. -/
def Float.compare? (x y : Float) : Option Ordering :=
  if x.isNaN || y.isNaN then none else some (compare (Float.place x) (Float.place y))

/-- Equality of kind and value; the two zeros of binary64 are equal. -/
def Number.same : Number → Number → Bool
  | .int m, .int n => m == n
  | .float x, .float y => Float.compare? x y == some .eq
  | _, _ => false

/-- The order in which numbers are compared: that of their values if both are signed words, else
that of the binary64 values nearest to them. -/
def Number.compare? (a b : Number) : Option Ordering :=
  match a.word?, b.word? with
  | some m, some n => some (compare m n)
  | _, _ => Float.compare? a.toFloat b.toFloat

end Warden
