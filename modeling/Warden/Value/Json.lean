import Warden.Value
import Warden.Number.Shortest
import Warden.Number.Decimal
import Warden.Number.Digits
/-! # Values as JSON text
`Value.json` writes a value as compact JSON; `Value.ofJson?` reads JSON text, skipping white space.
Of a repeated name in an object the last value stays. -/

namespace Warden

namespace Json

/-- A hexadecimal digit, in lower case. -/
def hexDigit (n : Nat) : Char := Nat.digitChar n

/-- The escape of a character inside a JSON text. -/
def escape (c : Char) : List Char :=
  if c = '"' then ['\\', '"']
  else if c = '\\' then ['\\', '\\']
  else if c = '\n' then ['\\', 'n']
  else if c = '\r' then ['\\', 'r']
  else if c = '\t' then ['\\', 't']
  else if c = Char.ofNat 8 then ['\\', 'b']
  else if c = Char.ofNat 12 then ['\\', 'f']
  else if c.toNat < 32 then
    ['\\', 'u', '0', '0', hexDigit (c.toNat / 16), hexDigit (c.toNat % 16)]
  else [c]

/-- A text between quotation marks. -/
def quote (text : String) : String :=
  "\"" ++ String.ofList (text.toList.flatMap escape) ++ "\""

end Json

namespace Value

mutual

/-- The value as compact JSON. -/
def json : Value → String
  | .null => "null"
  | .bool b => if b then "true" else "false"
  | .number n => n.text
  | .string s => Json.quote s
  | .array items => "[" ++ jsonItems items ++ "]"
  | .object fields => "\x7b" ++ jsonFields fields ++ "\x7d"

/-- Items separated by commas. -/
def jsonItems : List Value → String
  | [] => ""
  | [v] => v.json
  | v :: w :: rest => v.json ++ "," ++ jsonItems (w :: rest)

/-- Entries separated by commas. -/
def jsonFields : List (String × Value) → String
  | [] => ""
  | [(k, v)] => Json.quote k ++ ":" ++ v.json
  | (k, v) :: e :: rest => Json.quote k ++ ":" ++ v.json ++ "," ++ jsonFields (e :: rest)

end

end Value

namespace Json

/-- Drop the white space at the start of a text. -/
def skipBlank (text : List Char) : List Char :=
  text.dropWhile fun c => c = ' ' || c = '\t' || c = '\n' || c = '\r'

/-- Four hexadecimal digits. -/
def hexUnit? : List Char → Option (Nat × List Char)
  | a :: b :: c :: d :: rest => (Digits.number? 16 [a, b, c, d]).map fun n => (n, rest)
  | _ => none

/-- The character behind `\u`; two surrogate units stand for one character. -/
def unicodeEscape? (text : List Char) : Option (Char × List Char) := do
  let (first, rest) ← hexUnit? text
  if 0xD800 ≤ first ∧ first < 0xDC00 then
    match rest with
    | '\\' :: 'u' :: more =>
      let (second, rest) ← hexUnit? more
      if 0xDC00 ≤ second ∧ second < 0xE000 then
        some (Char.ofNat (0x10000 + (first - 0xD800) * 0x400 + (second - 0xDC00)), rest)
      else none
    | _ => none
  else if 0xDC00 ≤ first ∧ first < 0xE000 then none
  else some (Char.ofNat first, rest)

/-- The character that a one-letter escape stands for. -/
def letterEscape? : Char → Option Char
  | '"' => some '"'
  | '\\' => some '\\'
  | '/' => some '/'
  | 'b' => some (Char.ofNat 8)
  | 'f' => some (Char.ofNat 12)
  | 'n' => some '\n'
  | 'r' => some '\r'
  | 't' => some '\t'
  | _ => none

/-- Read a text up to its closing quotation mark; `done` holds the characters read, last first. -/
def readText (fuel : Nat) (text : List Char) (done : List Char) : Option (String × List Char) :=
  match fuel, text with
  | 0, _ => none
  | _, [] => none
  | fuel + 1, c :: rest =>
    if c = '"' then some (String.ofList done.reverse, rest)
    else if c = '\\' then
      match rest with
      | 'u' :: digits => do
        let (decoded, rest) ← unicodeEscape? digits
        readText fuel rest (decoded :: done)
      | letter :: rest => do
        let decoded ← letterEscape? letter
        readText fuel rest (decoded :: done)
      | [] => none
    else if c.toNat < 32 then none
    else readText fuel rest (c :: done)

/-- Read a number: digits without a superfluous zero, then fraction and exponent. -/
def readNumber? (text : List Char) : Option (Number × List Char) := do
  let (negative, unsigned) := match text with
    | '-' :: rest => (true, rest)
    | rest => (false, rest)
  let (whole, afterWhole) := Decimal.spanDigits unsigned
  if whole.isEmpty ∨ (1 < whole.length ∧ whole.head? = some '0') then none
  let (fraction, pointed, afterFraction) ← match afterWhole with
    | '.' :: rest =>
      let (fraction, after) := Decimal.spanDigits rest
      if fraction.isEmpty then none else some (fraction, true, after)
    | rest => some ([], false, rest)
  let (exponent, scaled, after) ← match afterFraction with
    | c :: _ =>
      if c = 'e' ∨ c = 'E' then
        (Decimal.spanExponent afterFraction).map fun (e, after) => (e, true, after)
      else some (0, false, afterFraction)
    | [] => some (0, false, [])
  some (Number.ofDecimal ⟨negative, whole, fraction, exponent⟩ (!pointed && !scaled), after)

/-- Drop a word from the start of a text. -/
def dropWord? (word : String) (text : List Char) : Option (List Char) :=
  if word.toList.isPrefixOf text then some (text.drop word.length) else none

mutual

/-- Read one value. -/
def readValue : Nat → List Char → Option (Value × List Char)
  | 0, _ => none
  | fuel + 1, text =>
    match skipBlank text with
    | [] => none
    | c :: rest =>
      if c = '"' then
        (readText (rest.length + 1) rest []).map fun (s, rest) => (.string s, rest)
      else if c = '[' then
        match skipBlank rest with
        | ']' :: rest => some (.array [], rest)
        | rest => (readItems fuel rest).map fun (items, rest) => (.array items, rest)
      else if c = '\x7b' then
        match skipBlank rest with
        | '\x7d' :: rest => some (.object [], rest)
        | rest =>
          (readEntries fuel rest).map fun (entries, rest) => (.object (Fields.ofList entries), rest)
      else if c = 't' then (dropWord? "true" (c :: rest)).map fun rest => (.bool true, rest)
      else if c = 'f' then (dropWord? "false" (c :: rest)).map fun rest => (.bool false, rest)
      else if c = 'n' then (dropWord? "null" (c :: rest)).map fun rest => (.null, rest)
      else (readNumber? (c :: rest)).map fun (n, rest) => (.number n, rest)

/-- Read one or more values up to the closing bracket. -/
def readItems : Nat → List Char → Option (List Value × List Char)
  | 0, _ => none
  | fuel + 1, text => do
    let (item, rest) ← readValue fuel text
    match skipBlank rest with
    | ',' :: rest =>
      let (items, rest) ← readItems fuel rest
      some (item :: items, rest)
    | ']' :: rest => some ([item], rest)
    | _ => none

/-- Read one or more entries up to the closing brace. -/
def readEntries : Nat → List Char → Option (List (String × Value) × List Char)
  | 0, _ => none
  | fuel + 1, text => do
    match skipBlank text with
    | '"' :: rest =>
      let (key, rest) ← readText (rest.length + 1) rest []
      match skipBlank rest with
      | ':' :: rest =>
        let (value, rest) ← readValue fuel rest
        match skipBlank rest with
        | ',' :: rest =>
          let (entries, rest) ← readEntries fuel rest
          some ((key, value) :: entries, rest)
        | '\x7d' :: rest => some ([(key, value)], rest)
        | _ => none
      | _ => none
    | _ => none

end

end Json

/-- Read a JSON text that holds one value and nothing else. -/
def Value.ofJson? (text : String) : Option Value :=
  let chars := text.toList
  match Json.readValue (2 * chars.length + 2) chars with
  | some (value, rest) => if (Json.skipBlank rest).isEmpty then some value else none
  | none => none

end Warden
