import Warden.Number
/-! # Decimal numerals
A numeral is a sign, digits before and after a point, and a power of ten. Two readings of it as a
binary64 are in use. `Decimal.nearest` is the binary64 nearest to the exact value. `Decimal.scaled`
is what documents use: the leading digits that fit 64 bits are converted on their own and then
multiplied or divided by a power of ten, so that a long numeral may end up beside the nearest
value. -/

namespace Warden

/-- A decimal numeral. -/
structure Decimal where
  /-- Whether a minus sign stands in front. -/
  negative : Bool
  /-- Digits before the point. -/
  whole : List Char
  /-- Digits after the point. -/
  fraction : List Char
  /-- The power of ten written behind the digits; zero if none is. -/
  exponent : Int
  deriving Repr, DecidableEq

namespace Decimal

/-- The value of a digit. -/
def digit (c : Char) : Nat := c.toNat - '0'.toNat

/-- The number that digits denote. -/
def ofDigits (digits : List Char) : Nat :=
  digits.foldl (fun n c => 10 * n + digit c) 0

/-- Negate when a minus sign was read. -/
def signed (negative : Bool) (x : Float) : Float :=
  if negative then -x else x

/-- The binary64 nearest to `significand * 10 ^ exponent`. Exponents far outside the range of
binary64 are decided without computing the power. -/
def nearestPower (significand : Nat) (exponent : Int) : Float :=
  let size := (Nat.toDigits 10 significand).length + exponent
  if significand = 0 ∨ size < -400 then 0
  else if 400 < size then 1.0 / 0.0
  else if exponent < 0 then Float.ofScientific significand true exponent.natAbs
  else Float.ofScientific significand false exponent.natAbs

/-- The binary64 nearest to the value of the numeral. -/
def nearest (d : Decimal) : Float :=
  signed d.negative
    (nearestPower (ofDigits (d.whole ++ d.fraction)) (d.exponent - d.fraction.length))

/-- Append digits to a significand as long as it stays an unsigned 64-bit integer; returns it with
the digits that were left out. -/
def absorb (significand : Nat) : List Char → Nat × List Char
  | [] => (significand, [])
  | c :: rest =>
    let next := 10 * significand + digit c
    if (next : Int) ≤ maxUnsigned then absorb next rest else (significand, c :: rest)

/-- Scale by a power of ten in binary64 arithmetic; exponents below `-308` take several steps. -/
def scale : Nat → Float → Int → Float
  | 0, x, _ => x
  | fuel + 1, x, exponent =>
    if 308 < exponent then (if x == 0 then x else 1.0 / 0.0)
    else if 0 ≤ exponent then x * nearestPower 1 exponent
    else if -308 ≤ exponent then x / nearestPower 1 (-exponent)
    else if x == 0 then x
    else scale fuel (x / 1e308) (exponent + 308)

/-- The reading of documents: significand first, power of ten second. -/
def scaled (d : Decimal) : Float :=
  let (leading, skipped) := absorb 0 d.whole
  let (significand, unread) := absorb leading d.fraction
  let exponent := d.exponent + skipped.length - (d.fraction.length - unread.length : Nat)
  signed d.negative (scale 4 (Float.ofNat significand) exponent)

/-- The digits at the start of a text, and what follows them. -/
def spanDigits (text : List Char) : List Char × List Char :=
  (text.takeWhile Char.isDigit, text.dropWhile Char.isDigit)

/-- An optional sign at the start of a text; a plus sign counts as none. -/
def spanSign : List Char → Bool × List Char
  | '-' :: rest => (true, rest)
  | '+' :: rest => (false, rest)
  | rest => (false, rest)

/-- An exponent part, if the text starts with a complete one. -/
def spanExponent (text : List Char) : Option (Int × List Char) :=
  match text with
  | c :: rest =>
    if c = 'e' ∨ c = 'E' then
      let (negative, unsigned) := spanSign rest
      let (digits, after) := spanDigits unsigned
      if digits.isEmpty then none
      else some (if negative then -(ofDigits digits : Int) else ofDigits digits, after)
    else none
  | [] => none

/-- Read a whole text as a numeral: an optional sign, digits with at most one point among or beside
them, and an optional exponent part. -/
def ofText? (text : String) : Option Decimal :=
  let (negative, unsigned) := spanSign text.toList
  let (whole, afterWhole) := spanDigits unsigned
  let (fraction, afterFraction) := match afterWhole with
    | '.' :: rest => spanDigits rest
    | rest => ([], rest)
  if whole.isEmpty && fraction.isEmpty then none
  else match afterFraction with
    | [] => some ⟨negative, whole, fraction, 0⟩
    | rest => match spanExponent rest with
      | some (exponent, []) => some ⟨negative, whole, fraction, exponent⟩
      | _ => none

end Decimal

/-- Numbers written as an optional minus sign and digits, with or without fraction and exponent.
Without them the number is an integer if it fits; `-0` does not, its sign being kept. -/
def Number.ofDecimal (d : Decimal) (plain : Bool) : Number :=
  let magnitude : Int := Decimal.ofDigits d.whole
  let n := if d.negative then -magnitude else magnitude
  if plain && !(d.negative && magnitude == 0) && decide (minWord ≤ n ∧ n ≤ maxUnsigned) then .int n
  else .float d.scaled

end Warden
