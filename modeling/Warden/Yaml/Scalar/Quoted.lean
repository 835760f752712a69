import Warden.Yaml.Cursor
import Warden.Number.Digits
/-! # Quoted scalars
Between apostrophes an apostrophe is written twice and nothing else is special. Between quotation
marks a backslash starts an escape, and one at the end of a line joins it with the next. In both
kinds line breaks are folded. -/

namespace Warden

namespace Yaml

/-- The character that a one-letter escape stands for. -/
def letterEscape? : Char → Option Char
  | '0' => some (Char.ofNat 0)
  | 'a' => some (Char.ofNat 7)
  | 'b' => some (Char.ofNat 8)
  | 't' | '\t' => some '\t'
  | 'n' => some '\n'
  | 'v' => some (Char.ofNat 11)
  | 'f' => some (Char.ofNat 12)
  | 'r' => some '\r'
  | 'e' => some (Char.ofNat 27)
  | ' ' => some ' '
  | '"' => some '"'
  | '/' => some '/'
  | '\\' => some '\\'
  | 'N' => some '\u0085'
  | '_' => some (Char.ofNat 0xA0)
  | 'L' => some '\u2028'
  | 'P' => some '\u2029'
  | _ => none

/-- The number of hexadecimal digits behind an escape letter. -/
def escapeWidth? : Char → Option Nat
  | 'x' => some 2
  | 'u' => some 4
  | 'U' => some 8
  | _ => none

/-- Read an escape behind its backslash: the character, and the number of characters it takes. -/
def escape? : List Char → Option (Char × Nat)
  | [] => none
  | letter :: rest =>
    match escapeWidth? letter with
    | some width => do
      let digits := rest.take width
      if digits.length < width then none
      else some (← Digits.character? (← Digits.number? 16 digits), width + 1)
    | none => (letterEscape? letter).map fun c => (c, 1)

/-- The characters of a line up to white space, the closing mark or an escaped line break; the
second result tells whether an escaped line break follows. -/
def quotedWord? (single : Bool) (fuel : Nat) (cursor : Cursor) :
    Option (List Char × Bool × Cursor) :=
  match fuel, cursor.rest with
  | 0, _ => none
  | _, [] => some ([], false, cursor)
  | fuel + 1, c :: rest =>
    if isBlank c || isBreak c then some ([], false, cursor)
    else if single then
      if c = '\'' then
        if rest.head? = some '\'' then
          (quotedWord? single fuel (cursor.skip 2)).map fun (word, after) => ('\'' :: word, after)
        else some ([], false, cursor)
      else (quotedWord? single fuel (cursor.skip 1)).map fun (word, after) => (c :: word, after)
    else if c = '"' then some ([], false, cursor)
    else if c = '\\' then
      if rest.head?.any isBreak then
        (cursor.skip 1).lineBreak?.map fun (_, next) => ([], true, next)
      else do
        let (escaped, count) ← escape? rest
        let (word, after) ← quotedWord? single fuel (cursor.skip (count + 1))
        return (escaped :: word, after)
    else (quotedWord? single fuel (cursor.skip 1)).map fun (word, after) => (c :: word, after)

/-- Read up to the closing mark. -/
def quotedWords? (single : Bool) (fuel : Nat) (cursor : Cursor) : Option (List Char × Cursor) :=
  match fuel with
  | 0 => none
  | fuel + 1 =>
    if cursor.atDocumentEdge || cursor.rest.isEmpty then none
    else do
      let (word, escapedBreak, after) ← quotedWord? single (cursor.rest.length + 1) cursor
      if !escapedBreak && after.peek? = some (if single then '\'' else '"') then
        return (word, after.skip 1)
      let (gap, next) ← Gap.read? 0 after.rest.length { broken := escapedBreak } after
      let (words, behind) ← quotedWords? single fuel next
      return (word ++ gap.text ++ words, behind)

/-- Read a quoted scalar from its opening mark on. -/
def quotedScalar? (single : Bool) (cursor : Cursor) : Option (String × Cursor) := do
  let (text, after) ← quotedWords? single (cursor.rest.length + 1) (cursor.skip 1)
  return (String.ofList text, after)

end Yaml

end Warden
