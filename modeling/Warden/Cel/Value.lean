import Warden.Number.Exact
import Warden.Value
/-! # Values of expressions
What expressions evaluate to. Integers come with a sign (`int`) and without (`uint`); equality and
order look across the two and binary64, while the keys of a map keep them apart.

Lists and maps have an identity: one that an expression makes gets a number that no other one has,
and keeps it wherever it is handed on. A list is equal to itself even if it holds what is not a
number, which differs from itself; of two lists the items are compared. -/

namespace Warden

namespace Cel

/-- A key of a map. -/
inductive Key where
  /-- A signed integer. -/
  | int (value : Int)
  /-- An unsigned integer. -/
  | uint (value : Nat)
  /-- A truth value. -/
  | bool (value : Bool)
  /-- A text. -/
  | text (value : String)
  deriving DecidableEq, Repr

/-- What an expression evaluates to. -/
inductive Value where
  /-- No value. -/
  | null
  /-- A truth value. -/
  | bool (value : Bool)
  /-- A signed 64-bit integer. -/
  | int (value : Int)
  /-- An unsigned 64-bit integer. -/
  | uint (value : Nat)
  /-- A binary64. -/
  | double (value : Float)
  /-- A text. -/
  | text (value : String)
  /-- A list. Its identity is zero if it is part of a document, where every number equals
  itself. -/
  | list (identity : Nat) (items : List Value)
  /-- A map, which has every key at most once; its identity is as for lists. -/
  | map (identity : Nat) (entries : List (Key × Value))
  /-- A function that was named on an object without being called. -/
  | function (name : String) (object : Value)
  deriving Inhabited

namespace Value

mutual

/-- The value of a document as an expression sees it. -/
def ofValue : Warden.Value → Value
  | .null => .null
  | .bool b => .bool b
  | .number (.float x) => .double x
  | .number (.int n) =>
    if n ≤ maxWord then (if minWord ≤ n then .int n else .double (Float.ofInt n))
    else if n ≤ maxUnsigned then .uint n.toNat
    else .double (Float.ofInt n)
  | .string s => .text s
  | .array items => .list 0 (ofItems items)
  | .object fields => .map 0 (ofFields fields)

/-- Items as an expression sees them. -/
def ofItems : List Warden.Value → List Value
  | [] => []
  | item :: rest => ofValue item :: ofItems rest

/-- Fields as an expression sees them. -/
def ofFields : List (String × Warden.Value) → List (Key × Value)
  | [] => []
  | (name, value) :: rest => (.text name, ofValue value) :: ofFields rest

end

/-- Whether a value counts as true: zero, the empty ones, null and functions do not. -/
def truthy : Value → Bool
  | .null => false
  | .bool b => b
  | .int n => n ≠ 0
  | .uint n => n ≠ 0
  | .double x => !(x == 0)
  | .text s => !s.isEmpty
  | .list _ items => !items.isEmpty
  | .map _ entries => !entries.isEmpty
  | .function _ _ => false

/-- The value as a key of a map, if it can be one. -/
def key? : Value → Option Key
  | .int n => some (.int n)
  | .uint n => some (.uint n)
  | .bool b => some (.bool b)
  | .text s => some (.text s)
  | _ => none

/-- A key as a value. -/
def ofKey : Key → Value
  | .int n => .int n
  | .uint n => .uint n
  | .bool b => .bool b
  | .text s => .text s

/-- The entry of exactly a key. -/
def valueAt? (entries : List (Key × Value)) (key : Key) : Option Value :=
  entries.lookup key

/-- The same integer as a key of the other kind. -/
def otherKey? : Key → Option Key
  | .int n => if 0 ≤ n then some (.uint n.toNat) else none
  | .uint n => if (n : Int) ≤ maxWord then some (.int n) else none
  | _ => none

/-- The entry of a key, or of the same integer of the other kind. -/
def find? (entries : List (Key × Value)) (key : Key) : Option Value :=
  (valueAt? entries key).or ((otherKey? key).bind (valueAt? entries))

/-- Store an entry, replacing a former one of the same key. -/
def put (entries : List (Key × Value)) (key : Key) (value : Value) : List (Key × Value) :=
  match entries with
  | [] => [(key, value)]
  | (k, v) :: rest => if k = key then (key, value) :: rest else (k, v) :: put rest key value

/-- The order of two values, if they can be compared. -/
def compare? : Value → Value → Option Ordering
  | .int a, .int b => some (compare a b)
  | .uint a, .uint b => some (compare a b)
  | .double a, .double b => Float.compare? a b
  | .int a, .uint b => some (compare a b)
  | .uint a, .int b => some (compare (a : Int) b)
  | .int a, .double b => Float.compare? (Float.ofInt a) b
  | .double a, .int b => Float.compare? a (Float.ofInt b)
  | .uint a, .double b => Float.compare? (Float.ofNat a) b
  | .double a, .uint b => Float.compare? a (Float.ofNat b)
  | .text a, .text b => some (compare a b)
  | .bool a, .bool b => some (compare a b)
  | .null, .null => some .eq
  | _, _ => none

/-- Whether two identities are those of one list or map. -/
def isSame (a b : Nat) : Bool := a != 0 && a == b

mutual

/-- Equality. Numbers are compared across their kinds, lists item by item, maps key by key. -/
def equal : Value → Value → Bool
  | .list i a, .list j b => isSame i j || equalItems a b
  | .map i a, .map j b => isSame i j || (a.length == b.length && equalEntries a b)
  | .function f a, .function g b => f == g && equal a b
  | a, b => compare? a b == some .eq

/-- Equality, item by item. -/
def equalItems : List Value → List Value → Bool
  | [], [] => true
  | a :: as, b :: bs => equal a b && equalItems as bs
  | _, _ => false

/-- Whether every entry is found, with an equal value, among others. -/
def equalEntries : List (Key × Value) → List (Key × Value) → Bool
  | [], _ => true
  | (key, a) :: as, others =>
    match valueAt? others key with
    | some b => equal a b && equalEntries as others
    | none => false

end

end Value

end Cel

end Warden
