import Warden.Number.Decimal
import Warden.Number.Digits
import Warden.Value
import Warden.Yaml.Document
/-! # YAML data
A `Datum` is a node whose scalars have been given their kind: a plain scalar may be null, a truth
value or a number, and every other scalar is a text. Keys may be of any kind and may be repeated; a
`Value` has texts for keys, and of a repeated one the last entry counts. -/

namespace Warden

namespace Yaml

/-- How deep lists and field maps may be nested in a document. -/
def maxDepth : Nat := 128

/-- A node with scalars of a kind. -/
inductive Datum where
  /-- No value. -/
  | null
  /-- A truth value. -/
  | bool (value : Bool)
  /-- An integer without minus sign. -/
  | natural (value : Nat)
  /-- An integer with minus sign. -/
  | negative (value : Int)
  /-- A binary64, which need not be finite. -/
  | float (value : Float)
  /-- A text. -/
  | text (value : String)
  /-- A list. -/
  | list (items : List Datum)
  /-- Entries of keys and values. -/
  | entries (entries : List (Datum × Datum))
  deriving Inhabited

/-! ## Kinds of plain scalars -/

/-- Whether a plain scalar stands for no value. -/
def isNullText (text : String) : Bool := ["", "~", "null", "Null", "NULL"].contains text

/-- The truth value of a plain scalar. -/
def boolOf? (text : String) : Option Bool :=
  if ["true", "True", "TRUE"].contains text then some true
  else if ["false", "False", "FALSE"].contains text then some false
  else none

/-- The number that digits of a base denote; there has to be one digit at least. -/
def digitsOf? (base : Nat) (digits : List Char) : Option Nat :=
  if digits.isEmpty then none else Digits.number? base digits

/-- Whether a scalar consists of several digits of which the first is zero. Such a scalar is a
text. -/
def isZeroPadded (text : List Char) : Bool :=
  match (Decimal.spanSign text).2 with
  | '0' :: d :: rest => (d :: rest).all Char.isDigit
  | _ => false

/-- The base that two characters announce. -/
def base? : List Char → Option Nat
  | ['0', 'x'] => some 16
  | ['0', 'o'] => some 8
  | ['0', 'b'] => some 2
  | _ => none

/-- The number that digits denote behind a possible sign: in the base they announce, if they are
digits of it, else in base ten. -/
def magnitudeOf? (text : List Char) (unsigned : List Char) : Option Nat :=
  let announced := (base? (unsigned.take 2)).bind fun base => digitsOf? base (unsigned.drop 2)
  announced.or (if isZeroPadded text then none else digitsOf? 10 unsigned)

/-- The integer of a plain scalar. -/
def integerOf? (text : List Char) : Option Datum :=
  match text with
  | '-' :: unsigned => (magnitudeOf? text unsigned).map fun n => .negative (-n)
  | '+' :: unsigned => (magnitudeOf? text unsigned).map .natural
  | unsigned => (magnitudeOf? text unsigned).map .natural

/-- Whether an integer fits 64 bits, with a sign if it has a minus sign. -/
def Datum.fits : Datum → Bool
  | .natural n => (n : Int) ≤ maxUnsigned
  | .negative n => minWord ≤ n
  | _ => true

/-- Whether an integer fits 128 bits, with a sign if it has a minus sign. -/
def Datum.fitsTwice : Datum → Bool
  | .natural n => n < Nat.pow 2 128
  | .negative n => -(Nat.pow 2 127 : Nat) ≤ n
  | _ => true

/-- The binary64 of a plain scalar. -/
def floatOf? (text : String) : Option Float :=
  let chars := text.toList
  if ["+.inf", "+.Inf", "+.INF", ".inf", ".Inf", ".INF"].contains text then some (1.0 / 0.0)
  else if ["-.inf", "-.Inf", "-.INF"].contains text then some (-1.0 / 0.0)
  else if [".nan", ".NaN", ".NAN"].contains text then some (0.0 / 0.0)
  else if isZeroPadded chars then none
  else
    match Decimal.ofText? text with
    | none => none
    | some decimal => if decimal.nearest.isFinite then some decimal.nearest else none

/-- The kind of a plain scalar. Integers of more than 64 bits are out of range up to 128 bits, and
binary64 values beyond. -/
def plainDatum? (text : String) : Option Datum :=
  if isNullText text then some .null
  else match boolOf? text with
    | some b => some (.bool b)
    | none =>
      match (integerOf? text.toList).filter Datum.fitsTwice with
      | some n => if n.fits then some n else none
      | none => some (((floatOf? text).map Datum.float).getD (.text text))

namespace Datum

/-- The datum of a scalar. -/
def ofScalar? (written : String) (plain : Bool) : Option Datum :=
  if plain then plainDatum? written else some (.text written)

/-- Read the datum of a node, which at most so many lists and field maps may be nested in. -/
def ofNode : Nat → Node → Reading Datum
  | 0, node => do
    match ← node.target with
    | .scalar written plain => Reading.ofOption (ofScalar? written plain)
    | _ => failure
  | depth + 1, node => do
    match ← node.target with
    | .scalar written plain => Reading.ofOption (ofScalar? written plain)
    | .sequence items => return .list (← items.mapM (ofNode depth))
    | .mapping pairs =>
      return .entries (← pairs.mapM fun entry => do
        let key ← ofNode depth entry.1
        let value ← ofNode depth entry.2
        return (key, value))
    | .alias _ => failure

/-- The text, if the datum is one. -/
def text? : Datum → Option String
  | .text s => some s
  | _ => none

/-- The truth value, if the datum is one. -/
def bool? : Datum → Option Bool
  | .bool b => some b
  | _ => none

mutual

/-- The datum as a value; binary64 values that are not finite become null. A key that is no text
has no value. -/
def toValue? : Datum → Option Value
  | .null => some .null
  | .bool b => some (.bool b)
  | .natural n => some (.int n)
  | .negative n => some (.int n)
  | .float x => some (.ofFloat x)
  | .text s => some (.string s)
  | .list items => (valuesOf? items).map .array
  | .entries pairs => (fieldsOf? pairs).map fun fields => .object (Fields.ofList fields)

/-- Items as values. -/
def valuesOf? : List Datum → Option (List Value)
  | [] => some []
  | item :: rest => do
    let value ← item.toValue?
    let values ← valuesOf? rest
    some (value :: values)

/-- Entries as fields. -/
def fieldsOf? : List (Datum × Datum) → Option (List (String × Value))
  | [] => some []
  | (key, value) :: rest => do
    let name ← key.text?
    let value ← value.toValue?
    let fields ← fieldsOf? rest
    some ((name, value) :: fields)

end

/-- The texts of a list of texts. -/
def texts? (items : List Datum) : Option (List String) := items.mapM text?

/-- The place of the entry that a key addresses in a record of known parts. Parts are addressed by
name or by their position. Another name or position addresses no part (`some none`), and a key that
is neither is an error. -/
def part? (parts : List String) : Datum → Option (Option Nat)
  | .text name => some (parts.findIdx? (· = name))
  | .natural n => some (if n < parts.length then some n else none)
  | _ => none

/-- The parts of a record, each at most once. Entries that address no part are passed over if
`tolerant` holds, and are an error otherwise. -/
def parts? (parts : List String) (tolerant : Bool) : List (Datum × Datum) →
    Option (List (Nat × Datum))
  | [] => some []
  | (key, value) :: rest => do
    let found ← part? parts key
    let others ← parts? parts tolerant rest
    match found with
    | none => if tolerant then some others else none
    | some place =>
      if (others.lookup place).isSome then none else some ((place, value) :: others)

end Datum

end Yaml

end Warden
