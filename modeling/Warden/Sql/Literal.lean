import Warden.Value.Json
/-! # SQL literals
The constants that statements contain, and how they are written. A value of a record becomes a
literal by its kind; lists and field maps become their JSON text. -/

namespace Warden

namespace Sql

/-- A constant of a statement. -/
inductive Literal where
  /-- No value. -/
  | null
  /-- A truth value. -/
  | bool (value : Bool)
  /-- A signed 64-bit integer. -/
  | integer (value : Int)
  /-- A binary64. -/
  | double (value : Float)
  /-- A text. -/
  | text (value : String)
  deriving Repr, DecidableEq

/-- A name between quotation marks; marks inside it are doubled. -/
def quoteName (name : String) : String :=
  "\"" ++ String.ofList (name.toList.flatMap fun c => if c = '"' then ['"', '"'] else [c]) ++ "\""

/-- The letter behind the backslash that stands for a character, if it has to be escaped. -/
def escapeLetter? (c : Char) : Option Char :=
  if c = '\\' ∨ c = '"' ∨ c = '\'' then some c
  else if c.toNat = 0 then some '0'
  else if c.toNat = 8 then some 'b'
  else if c = '\t' then some 't'
  else if c.toNat = 26 then some 'z'
  else if c = '\n' then some 'n'
  else if c = '\r' then some 'r'
  else none

/-- A text between apostrophes. A text with characters to be escaped carries the mark `E`. -/
def quoteText (text : String) : String :=
  let body := text.toList.flatMap fun c =>
    match escapeLetter? c with
    | some letter => ['\\', letter]
    | none => [c]
  let mark := if text.toList.any fun c => (escapeLetter? c).isSome then "E" else ""
  mark ++ "'" ++ String.ofList body ++ "'"

namespace Literal

/-- Equality of kind and value; the two zeros of binary64 are equal. -/
def same : Literal → Literal → Bool
  | .null, .null => true
  | .bool a, .bool b => a == b
  | .integer a, .integer b => a == b
  | .double a, .double b => a == b
  | .text a, .text b => a == b
  | _, _ => false

/-- The literal of a value. An integer beyond the signed words becomes a binary64. -/
def ofValue : Value → Literal
  | .null => .null
  | .bool b => .bool b
  | .number n =>
    match n.word? with
    | some n => .integer n
    | none => .double n.toFloat
  | .string s => .text s
  | .array items => .text (Value.json (.array items))
  | .object fields => .text (Value.json (.object fields))

/-- How a literal is written. -/
def render : Literal → String
  | .null => "NULL"
  | .bool b => if b then "TRUE" else "FALSE"
  | .integer n => toString n
  | .double x => DecimalStyle.plain.text x
  | .text s => quoteText s

end Literal

end Sql

end Warden
