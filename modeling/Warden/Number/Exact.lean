import Warden.Number.Shortest
/-! # Exact operations on binary64
Two operations whose result is exact: dropping the fraction of a value, and the remainder of a
division whose quotient is rounded toward zero. Both work on mantissa and exponent. -/

namespace Warden

namespace Exact

/-- The integer part of a value without its sign. -/
def wholeMagnitude (x : Float) : Nat :=
  let (mantissa, exponent) := Shortest.parts x
  mantissa * Nat.pow 2 exponent.toNat / Nat.pow 2 (-exponent).toNat

/-- The integer part of a finite value. -/
def whole (x : Float) : Int :=
  if Shortest.isNegative x then -(wholeMagnitude x : Int) else wholeMagnitude x

/-- The integer of a range nearest to a value without its fraction; zero for what is not a number. -/
def clamp (least most : Int) (x : Float) : Int :=
  if x.isNaN then 0
  else if x.isInf then (if Shortest.isNegative x then least else most)
  else max least (min most (whole x))

/-- The binary64 `n * 2 ^ exponent`, for a product that is one. -/
def scaled (n : Nat) (exponent : Int) : Float :=
  let surplus := Nat.log2 n - 52
  Float.scaleB (Float.ofNat (n / Nat.pow 2 surplus)) (exponent + surplus)

/-- The remainder of a division. It has the sign of the dividend. -/
def remainder (x y : Float) : Float :=
  if x.isNaN || y.isNaN || x.isInf || y == 0 then 0.0 / 0.0
  else if y.isInf then x
  else
    let (m, e) := Shortest.parts x
    let (n, f) := Shortest.parts y
    let least := min e f
    let rest := m * Nat.pow 2 (e - least).toNat % (n * Nat.pow 2 (f - least).toNat)
    let magnitude := scaled rest least
    if Shortest.isNegative x then -magnitude else magnitude

end Exact

end Warden
