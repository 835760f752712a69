import Warden.Fields
import Warden.Number
/-! # Values
The values that records hold and that rules, filters and policies mention. Two equalities matter:

* `Value.same` compares structure: kinds of numbers are told apart at every depth;
* `Value.equal` compares two numbers across kinds, and is `Value.same` on anything else. Only signed
  words are compared by their values, other numbers by the binary64 values nearest to them.

`Value.compare?` orders numbers with numbers and texts with texts, and nothing else. -/

namespace Warden

/-- A value of a record or a document. -/
inductive Value where
  /-- No value. -/
  | null
  /-- A truth value. -/
  | bool (value : Bool)
  /-- A number. -/
  | number (value : Number)
  /-- A text. -/
  | string (value : String)
  /-- A list of values. -/
  | array (items : List Value)
  /-- A field map. -/
  | object (fields : List (String × Value))
  deriving Inhabited

/-- The values of a record's fields. -/
abbrev FieldValues := Fields Value

namespace Value

/-- An integer value. -/
def int (n : Int) : Value := .number (.int n)

/-- A binary64 value; one that is not finite becomes null, as documents cannot hold it. -/
def ofFloat (x : Float) : Value :=
  if x.isFinite then .number (.float x) else .null

/-- Whether the value is null. -/
def isNull : Value → Bool
  | .null => true
  | _ => false

/-- The text, if the value is one. -/
def text? : Value → Option String
  | .string s => some s
  | _ => none

/-- The truth value, if the value is one. -/
def bool? : Value → Option Bool
  | .bool b => some b
  | _ => none

/-- The number, if the value is one. -/
def number? : Value → Option Number
  | .number n => some n
  | _ => none

/-- The items, if the value is a list. -/
def items? : Value → Option (List Value)
  | .array items => some items
  | _ => none

/-- The field map, if the value is one. -/
def fields? : Value → Option FieldValues
  | .object fields => some fields
  | _ => none

/-- The fields of a record. A record is written as a field map or as a list of its first fields,
whose names are then given in their order. -/
def record? (names : List String) : Value → Option FieldValues
  | .object fields => some fields
  | .array items =>
    if items.length ≤ names.length then some (Fields.ofList (names.zip items)) else none
  | _ => none

@[simp] theorem record?_object (names : List String) (fields : FieldValues) :
    record? names (.object fields) = some fields := rfl

mutual

/-- Equality of structure. -/
def same : Value → Value → Bool
  | .null, .null => true
  | .bool a, .bool b => a == b
  | .number a, .number b => a.same b
  | .string a, .string b => a == b
  | .array a, .array b => sameItems a b
  | .object a, .object b => sameFields a b
  | _, _ => false

/-- Equality of structure, item by item. -/
def sameItems : List Value → List Value → Bool
  | [], [] => true
  | a :: as, b :: bs => a.same b && sameItems as bs
  | _, _ => false

/-- Equality of structure, entry by entry. -/
def sameFields : List (String × Value) → List (String × Value) → Bool
  | [], [] => true
  | (k, a) :: as, (l, b) :: bs => k == l && a.same b && sameFields as bs
  | _, _ => false

end

/-- The order of two numbers (`Number.compare?`) or two texts; values of other kinds have none. -/
def compare? : Value → Value → Option Ordering
  | .number a, .number b => a.compare? b
  | .string a, .string b => some (compare a b)
  | _, _ => none

/-- Equality that looks across the kinds of numbers, so that `5` equals `5.0`. Two numbers that are
not both signed words are equal if the binary64 values nearest to them are. -/
def equal : Value → Value → Bool
  | .number a, .number b => a.compare? b == some .eq
  | a, b => a.same b

/-- Whether the value belongs to a kind that ranges can hold. -/
def isRangeable : Value → Bool
  | .number _ => true
  | .string _ => true
  | _ => false

end Value

end Warden
