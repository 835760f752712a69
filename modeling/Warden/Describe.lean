import Warden.Value
import Warden.Number.Shortest
import Warden.Describe.Hidden
/-! # Descriptions
One-line texts that show the structure of a value to a developer. This module holds the layouts
(`record`, `tagged`, `list`, `map`, `option`), the quoting of texts, and the description of values;
every other type has its description beside its definition. -/

namespace Warden

namespace Describe

/-- Parts separated by commas. -/
def commas (parts : List String) : String := ", ".intercalate parts

/-- A name and named parts between braces. -/
def record (name : String) (parts : List (String × String)) : String :=
  if parts.isEmpty then name
  else name ++ " \x7b " ++ commas (parts.map fun part => part.1 ++ ": " ++ part.2) ++ " \x7d"

/-- A name and one part between parentheses. -/
def tagged (name part : String) : String := name ++ "(" ++ part ++ ")"

/-- Parts between brackets. -/
def list (parts : List String) : String := "[" ++ commas parts ++ "]"

/-- Parts between braces. -/
def set (parts : List String) : String := "\x7b" ++ commas parts ++ "\x7d"

/-- Keys with their parts between braces. -/
def map (parts : List (String × String)) : String :=
  set (parts.map fun part => part.1 ++ ": " ++ part.2)

/-- A part that may be absent. -/
def option : Option String → String
  | none => "None"
  | some part => tagged "Some" part

/-- A truth value. -/
def bool (b : Bool) : String := if b then "true" else "false"

/-- The hexadecimal digits of a number. -/
def hexadecimal (n : Nat) : List Char := Nat.toDigits 16 n

/-- A character inside a quoted text; characters that would not be seen are escaped. -/
def escape (c : Char) : List Char :=
  if c = '"' then ['\\', '"']
  else if c = '\\' then ['\\', '\\']
  else if c = '\n' then ['\\', 'n']
  else if c = '\r' then ['\\', 'r']
  else if c = '\t' then ['\\', 't']
  else if c.toNat = 0 then ['\\', '0']
  else if isHidden c || isMark c then
    ['\\', 'u', '\x7b'] ++ hexadecimal c.toNat ++ ['\x7d']
  else [c]

/-- A text between quotation marks. -/
def quoted (text : String) : String :=
  "\"" ++ String.ofList (text.toList.flatMap escape) ++ "\""

end Describe

namespace Value

mutual

/-- The description of a value. -/
def describe : Value → String
  | .null => "Null"
  | .bool b => Describe.tagged "Bool" (Describe.bool b)
  | .number n => Describe.tagged "Number" n.text
  | .string s => Describe.tagged "String" (Describe.quoted s)
  | .array items => "Array " ++ Describe.list (describeItems items)
  | .object fields => "Object " ++ Describe.set (describeFields fields)

/-- The descriptions of items. -/
def describeItems : List Value → List String
  | [] => []
  | v :: rest => v.describe :: describeItems rest

/-- The descriptions of entries. -/
def describeFields : List (String × Value) → List String
  | [] => []
  | (k, v) :: rest => (Describe.quoted k ++ ": " ++ v.describe) :: describeFields rest

end

end Value

end Warden
