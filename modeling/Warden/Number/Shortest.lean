import Warden.Number
/-! # Shortest decimals
A finite binary64 other than zero is written with the fewest decimal digits that still read back
as the same value; of several such decimals the nearest to the value is taken. `Shortest.digits`
finds them in exact natural-number arithmetic: a value is `mantissa * 2 ^ exponent`, the reals that
round to it form an interval around it, and for one, two, … digits the two decimals next to the
value are tried against that interval. `DecimalStyle` says how the digits are laid out. -/

namespace Warden

namespace Shortest

/-- Mantissa and binary exponent of a binary64 without its sign. -/
def parts (x : Float) : Nat × Int :=
  let bits : Nat := x.toBits.toNat
  let field : Nat := bits / Nat.pow 2 52 % 2048
  let fraction : Nat := bits % Nat.pow 2 52
  if field = 0 then (fraction, -1074) else (fraction + Nat.pow 2 52, Int.ofNat field - 1075)

/-- Whether the sign bit is set. -/
def isNegative (x : Float) : Bool :=
  x.toBits.toNat / Nat.pow 2 63 = 1

/-- The reals that round to a value, as numerators over one denominator. -/
structure Interval where
  /-- Lower end. -/
  low : Nat
  /-- The value itself. -/
  middle : Nat
  /-- Upper end. -/
  high : Nat
  /-- Common denominator. -/
  unit : Nat
  /-- Whether the ends belong to the interval. -/
  closed : Bool

/-- The rounding interval of `mantissa * 2 ^ exponent`. Below a power of two the neighbour is only
half as far away, except at the smallest exponent. -/
def interval (mantissa : Nat) (exponent : Int) : Interval :=
  let below := if mantissa = Nat.pow 2 52 ∧ exponent ≠ -1074 then 1 else 2
  let up := Nat.pow 2 (exponent - 2).toNat
  { low := (4 * mantissa - below) * up
    middle := 4 * mantissa * up
    high := (4 * mantissa + 2) * up
    unit := Nat.pow 2 (2 - exponent).toNat
    closed := mantissa % 2 = 0 }

/-- Number of decimal digits; zero has one. -/
def digitCount (n : Nat) : Nat :=
  (Nat.toDigits 10 n).length

/-- The exponent of the leading digit of `middle / unit`. -/
def leading (middle unit : Nat) : Int :=
  if unit ≤ middle then (digitCount (middle / unit) : Int) - 1
  else
    let places := digitCount (unit / middle)
    if unit = middle * Nat.pow 10 (places - 1) then 1 - (places : Int) else -(places : Int)

/-- Whether `candidate * grid / scale` lies in the interval. -/
def Interval.contains (i : Interval) (scale grid candidate : Nat) : Bool :=
  let point := candidate * grid * i.unit
  if i.closed then i.low * scale ≤ point && point ≤ i.high * scale
  else i.low * scale < point && point < i.high * scale

/-- The decimal on the grid `10 ^ place` that lies in the interval nearest to the value. -/
def Interval.onGrid (i : Interval) (place : Int) : Option Nat :=
  let scale := Nat.pow 10 (-place).toNat
  let grid := Nat.pow 10 place.toNat
  let value := i.middle * scale
  let step := grid * i.unit
  let down := value / step
  let up := down + 1
  match i.contains scale grid down, i.contains scale grid up with
  | true, true =>
    let fromDown := value - down * step
    let fromUp := up * step - value
    some (if fromDown < fromUp then down
      else if fromUp < fromDown then up
      else if down % 2 = 0 then down else up)
  | true, false => some down
  | false, true => some up
  | false, false => none

/-- Drop the trailing zeros of the digits, raising the exponent by one for each. -/
def trim : Nat → Nat → Int → Nat × Int
  | 0, digits, exponent => (digits, exponent)
  | fuel + 1, digits, exponent =>
    if digits ≠ 0 ∧ digits % 10 = 0 then trim fuel (digits / 10) (exponent + 1)
    else (digits, exponent)

/-- Try grids of more and more digits; seventeen digits always suffice. -/
def search (i : Interval) (lead : Int) : Nat → Nat → Nat × Int
  | 0, count => (i.middle * Nat.pow 10 ((count : Int) - lead).toNat / i.unit, lead - count)
  | fuel + 1, count =>
    let place := lead - count
    match i.onGrid place with
    | some found => trim 20 found place
    | none => search i lead fuel (count + 1)

/-- Digits and decimal exponent of a finite value other than zero: `digits * 10 ^ exponent`. -/
def digits (x : Float) : Nat × Int :=
  let (mantissa, exponent) := parts x
  let i := interval mantissa exponent
  search i (leading i.middle i.unit) 17 0

end Shortest

/-- A layout for the decimal digits of a binary64. -/
structure DecimalStyle where
  /-- Smallest and largest decimal exponent written without an exponent part; all if absent. -/
  positional : Option (Int × Int)
  /-- Whether an integral value written without exponent part ends in `.0`. -/
  pointZero : Bool

namespace DecimalStyle

/-- `n` zeros. -/
def zeros (n : Int) : String :=
  String.ofList (List.replicate n.toNat '0')

/-- Digits around a decimal point; `exponent` belongs to the last digit. -/
def positionalText (style : DecimalStyle) (digits : List Char) (exponent : Int) : String :=
  let point := (digits.length : Int) + exponent
  if 0 ≤ exponent then
    String.ofList digits ++ zeros exponent ++ (if style.pointZero then ".0" else "")
  else if 0 < point then
    String.ofList (digits.take point.toNat) ++ "." ++ String.ofList (digits.drop point.toNat)
  else "0." ++ zeros (-point) ++ String.ofList digits

/-- One digit before the point and a signed exponent. -/
def scientificText (digits : List Char) (exponent : Int) : String :=
  let power := (digits.length : Int) + exponent - 1
  let fraction := if digits.length ≤ 1 then "" else "." ++ String.ofList (digits.drop 1)
  let sign := if power < 0 then "-" else "+"
  String.ofList (digits.take 1) ++ fraction ++ "e" ++ sign ++ toString power.natAbs

/-- The text of a binary64. Values that are not finite are named. -/
def text (style : DecimalStyle) (x : Float) : String :=
  let sign := if Shortest.isNegative x then "-" else ""
  if x.isNaN then "NaN"
  else if x.isInf then sign ++ "inf"
  else if x == 0 then sign ++ (if style.pointZero then "0.0" else "0")
  else
    let (digits, exponent) := Shortest.digits x
    let shown := Nat.toDigits 10 digits
    let power := (shown.length : Int) + exponent - 1
    let plain := match style.positional with
      | none => true
      | some (least, most) => least ≤ power && power ≤ most
    sign ++ (if plain then style.positionalText shown exponent else scientificText shown exponent)

/-- Documents write a binary64 with a point, and with an exponent below `1e-5` and from `1e+16`. -/
def document : DecimalStyle := ⟨some (-5, 15), true⟩

/-- Plain decimals have no exponent, and a point only in front of a fraction. -/
def plain : DecimalStyle := ⟨none, false⟩

end DecimalStyle

namespace Number

/-- The text of a number in a document. -/
def text : Number → String
  | .int n => toString n
  | .float x => DecimalStyle.document.text x

end Number

end Warden
