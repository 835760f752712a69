import Warden.Cel.Operator
/-! # Functions
The functions that expressions may call, on an object or with the object as the first argument. An
argument is handed over unevaluated: some functions take a variable and a body that is evaluated for
every item. Arguments beyond those that a function takes are not looked at. An argument that is
missing is a failure where its value is wanted, and a panic where it is wanted unevaluated.

Not all functions of the language are here: those that look for the greatest argument, work on
bytes, match regular expressions or reckon with time are known by name and **left out**
(`omittedFunctions`). Calling one is a failure, which the language does not see as one. -/

namespace Warden

namespace Cel

open Warden.Cel.Value

/-- The values of variables; the innermost first. -/
abbrev Env : Type := List (String × Value)

/-- An argument of a call. -/
structure Argument where
  /-- The variable that the argument is, if it is one. -/
  ident? : Option String
  /-- The value of the argument. -/
  value : Env → Making Value

/-- The names of the functions that are left out. -/
def omittedFunctions : List String :=
  ["max", "bytes", "matches", "duration", "timestamp", "getFullYear", "getMonth", "getDayOfYear",
    "getDayOfMonth", "getDate", "getDayOfWeek", "getHours", "getMinutes", "getSeconds",
    "getMilliseconds"]

/-- The names of all functions. -/
def functionNames : List String :=
  ["contains", "size", "has", "map", "filter", "all", "startsWith", "endsWith", "string", "double",
    "exists", "exists_one", "int", "uint"] ++ omittedFunctions

/-- The value of the argument at a place, which has to be there. -/
def argument (env : Env) (arguments : List Argument) (place : Nat) : Making Value :=
  match arguments[place]? with
  | some argument => argument.value env
  | none => throw .failed

/-- The argument at a place, unevaluated. -/
def unevaluated (arguments : List Argument) (place : Nat) : Outcome Argument :=
  match arguments[place]? with
  | some argument => .ok argument
  | none =>
    .error (.panic ("index out of bounds: the len is " ++ toString arguments.length
      ++ " but the index is " ++ toString place))

/-- The object of a call, and the place of the first argument that is not the object. -/
def receiver (env : Env) (object : Option Value) (arguments : List Argument) :
    Making (Value × Nat) :=
  match object with
  | some object => return (object, 0)
  | none => return (← (argument env arguments 0).blurred, 1)

/-- A variable and a body, the arguments of functions that go through items. -/
def binder (arguments : List Argument) (place : Nat) :
    Outcome (String × (Env → Making Value)) := do
  match (← unevaluated arguments place).ident? with
  | none => throw .failed
  | some name =>
    let body ← unevaluated arguments (place + 1)
    return (name, body.value)

/-! ## Functions on items -/

/-- The values of the body for every item. -/
def mapItems (body : Value → Making Value) : List Value → Making (List Value)
  | [] => return []
  | item :: rest => do
    let value ← body item
    return value :: (← mapItems body rest)

/-- The items for which the body is true. -/
def filterItems (body : Value → Making Value) : List Value → Making (List Value)
  | [] => return []
  | item :: rest => do
    match ← body item with
    | .bool true => return item :: (← filterItems body rest)
    | _ => filterItems body rest

/-- Whether the body is false for no item; stops where it is. -/
def allItems (body : Value → Making Value) : List Value → Making Bool
  | [] => return true
  | item :: rest => do
    match ← body item with
    | .bool false => return false
    | _ => allItems body rest

/-- Whether the body is true for some item; stops where it is. -/
def someItem (body : Value → Making Value) : List Value → Making Bool
  | [] => return false
  | item :: rest => do
    match ← body item with
    | .bool true => return true
    | _ => someItem body rest

/-- Whether the body is true for exactly one item; stops at a second one. -/
def oneItem (body : Value → Making Value) (found : Bool) : List Value → Making Bool
  | [] => return found
  | item :: rest => do
    match ← body item with
    | .bool true => if found then return false else oneItem body true rest
    | _ => oneItem body found rest

/-- The items of a list. -/
def listItems : Value → Outcome (List Value)
  | .list _ items => .ok items
  | _ => .error .failed

/-- The items of a list or the keys of a map. -/
def elements : Value → Outcome (List Value)
  | .list _ items => .ok items
  | .map _ entries => .ok (entries.map fun entry => ofKey entry.1)
  | _ => .error .failed

/-! ## Functions on single values -/

/-- Whether a list has an item, a map a key, or a text a part; nothing is contained in values of
other kinds. -/
def contains (object item : Value) : Outcome Value :=
  match object with
  | .list _ items => .ok (.bool (items.any fun candidate => equal candidate item))
  | .map _ entries =>
    match key? item with
    | some key => .ok (.bool (valueAt? entries key).isSome)
    | none => .error .failed
  | .text whole =>
    match item with
    | .text part => .ok (.bool (occursIn part.toList whole.toList))
    | _ => .ok (.bool false)
  | _ => .ok (.bool false)

/-- The number of items, entries or bytes. -/
def size : Value → Outcome Value
  | .list _ items => .ok (.int items.length)
  | .map _ entries => .ok (.int entries.length)
  | .text s => .ok (.int s.utf8ByteSize)
  | _ => .error .failed

/-- A value as a text. -/
def toText : Value → Outcome Value
  | .text s => .ok (.text s)
  | .int n => .ok (.text (toString n))
  | .uint n => .ok (.text (toString n))
  | .double x => .ok (.text (DecimalStyle.plain.text x))
  | _ => .error .failed

/-- The digits of a text behind an optional sign, as a number. -/
def readInteger? (s : String) : Option Int :=
  let (negative, digits) := Decimal.spanSign s.toList
  if digits.isEmpty || !digits.all Char.isDigit then none
  else
    let magnitude : Int := Decimal.ofDigits digits
    some (if negative then -magnitude else magnitude)

/-- The binary64 that a text spells; infinity and what is not a number have names, in any case. -/
def readDouble? (s : String) : Option Float :=
  let (negative, word) := Decimal.spanSign s.toList
  match String.ofList (word.map Char.toLower) with
  | "inf" | "infinity" => some (Decimal.signed negative (1.0 / 0.0))
  | "nan" => some (0.0 / 0.0)
  | _ => (Decimal.ofText? s).map Decimal.nearest

/-- A value as a signed integer. -/
def toInt : Value → Outcome Value
  | .text s =>
    Outcome.ofOption ((readInteger? s).filter fun n => minWord ≤ n ∧ n ≤ maxWord)
      |>.map .int
  | .double x =>
    if Float.ofInt maxWord < x || x < Float.ofInt minWord then .error .failed
    else .ok (.int (Exact.clamp minWord maxWord x))
  | .int n => .ok (.int n)
  | .uint n => if (n : Int) ≤ maxWord then .ok (.int n) else .error .failed
  | _ => .error .failed

/-- A value as an unsigned integer. -/
def toUint : Value → Outcome Value
  | .text s =>
    if s.toList.head? = some '-' then .error .failed
    else Outcome.ofOption ((readInteger? s).filter fun n => n ≤ maxUnsigned)
      |>.map fun n => .uint n.toNat
  | .double x =>
    if Float.ofInt maxUnsigned < x || x < 0 then .error .failed
    else .ok (.uint (Exact.clamp 0 maxUnsigned x).toNat)
  | .int n => if 0 ≤ n then .ok (.uint n.toNat) else .error .failed
  | .uint n => .ok (.uint n)
  | _ => .error .failed

/-- A value as a binary64. -/
def toDouble : Value → Outcome Value
  | .text s => Outcome.ofOption (readDouble? s) |>.map .double
  | .double x => .ok (.double x)
  | .int n => .ok (.double (Float.ofInt n))
  | .uint n => .ok (.double (Float.ofNat n))
  | _ => .error .failed

/-- A test of two texts. -/
def ofTexts (test : List Char → List Char → Bool) : Value → Value → Outcome Value
  | .text a, .text b => .ok (.bool (test a.toList b.toList))
  | _, _ => .error .failed

/-! ## Calls -/

/-- Whether an argument has a value. A missing key is an answer, every other failure stays one. -/
def has (env : Env) (arguments : List Argument) : Making Value := fun made =>
  match argument env arguments 0 made with
  | .ok (_, made) => .ok (.bool true, made)
  | .error (.noSuchKey _) => .ok (.bool false, made)
  | .error fault => .error fault

/-- Call a function of one value. -/
def callUnary (f : Value → Outcome Value) (env : Env) (object : Option Value)
    (arguments : List Argument) : Making Value := do
  let (object, _) ← receiver env object arguments
  f object

/-- Call a function of two values. -/
def callBinary (f : Value → Value → Outcome Value) (env : Env) (object : Option Value)
    (arguments : List Argument) : Making Value := do
  let (object, place) ← receiver env object arguments
  let other ← argument env arguments place
  f object other

/-- Call a test of two texts; the object has to be one even before the other is looked at. -/
def callTexts (test : List Char → List Char → Bool) (env : Env) (object : Option Value)
    (arguments : List Argument) : Making Value := do
  let (object, place) ← receiver env object arguments
  match object with
  | .text _ => ofTexts test object (← argument env arguments place)
  | _ => throw .failed

/-- Call a function that goes through items. -/
def callItems (items : Value → Outcome (List Value))
    (f : (Value → Making Value) → List Value → Making Value) (env : Env) (object : Option Value)
    (arguments : List Argument) : Making Value := do
  let (object, place) ← receiver env object arguments
  let (name, body) ← binder arguments place
  f (fun item => body ((name, item) :: env)) (← items object)

/-- Call a test of items. -/
def callTest (test : (Value → Making Value) → List Value → Making Bool) :
    Env → Option Value → List Argument → Making Value :=
  callItems elements fun body items => return .bool (← test body items)

/-- Call a function by its name. A function that is left out is a failure on any object. -/
def callFunction (name : String) (env : Env) (object : Option Value)
    (arguments : List Argument) : Making Value :=
  match name with
  | "contains" => callBinary contains env object arguments
  | "size" => do size (← argument env arguments 0)
  | "has" => has env arguments
  | "map" =>
    callItems listItems (fun body items => do Making.list (← mapItems body items))
      env object arguments
  | "filter" =>
    callItems listItems (fun body items => do Making.list (← filterItems body items))
      env object arguments
  | "all" => callTest allItems env object arguments
  | "exists" => callTest someItem env object arguments
  | "exists_one" => callTest (fun body => oneItem body false) env object arguments
  | "startsWith" => callTexts (fun whole part => part.isPrefixOf whole) env object arguments
  | "endsWith" => callTexts (fun whole part => part.isSuffixOf whole) env object arguments
  | "string" => callUnary toText env object arguments
  | "int" => callUnary toInt env object arguments
  | "uint" => callUnary toUint env object arguments
  | "double" => callUnary toDouble env object arguments
  | _ => callUnary (fun _ => .error .failed) env object arguments

end Cel

end Warden
