import Warden.Describe
import Warden.Number.Digits
/-! # Texts in quotation marks
A text stands between two equal quotation marks and may run over several lines. A backslash takes
the character behind it along, so that a closing mark can be written inside; it does not reach over
the end of a line. Which characters end the text (`body?`) is settled before it is known what the
escapes in it mean (`decode`): a text may be closed well and still have an escape without
meaning. -/

namespace Warden

namespace Cel

namespace Quoted

/-- The quotation marks. -/
def isMark (c : Char) : Bool := c = '\'' || c = '"'

/-- The body of a text up to its closing mark, and what follows. -/
def body? (mark : Char) : List Char → Option (List Char × List Char)
  | [] => none
  | '\\' :: c :: rest =>
    if c = '\n' then none
    else (body? mark rest).map fun (body, after) => ('\\' :: c :: body, after)
  | c :: rest =>
    if c = mark then some ([], rest)
    else if c = '\\' then none
    else (body? mark rest).map fun (body, after) => (c :: body, after)

/-! ## Escapes -/

/-- Why an escape has no meaning. -/
inductive Fault where
  /-- No escape begins with the letter. -/
  | letter (letter : Char)
  /-- Something else stands where hexadecimal digits should be. -/
  | hexadecimal (digits : List Char)
  /-- Something else stands where octal digits should be. -/
  | octal (digits : List Char)
  /-- No character has the code point. -/
  | codePoint (value : Nat)
  deriving DecidableEq, Repr

/-- The character of a code point. -/
def charAt (n : Nat) : Except Fault Char :=
  match Digits.character? n with
  | some c => .ok c
  | none => .error (.codePoint n)

/-- The character of hexadecimal digits. A plus sign may stand in front of them. -/
def ofHexadecimal (digits : List Char) : Except Fault Char :=
  let unsigned := match digits with
    | '+' :: rest => rest
    | _ => digits
  match Digits.number? 16 unsigned with
  | some n => charAt n
  | none => .error (.hexadecimal digits)

/-- The character of octal digits. -/
def ofOctal (digits : List Char) : Except Fault Char :=
  match Digits.number? 8 digits with
  | some n => charAt n
  | none => .error (.octal digits)

/-- The character of a one-letter escape. -/
def letter? : Char → Option Char
  | 'a' => some (Char.ofNat 7)
  | 'b' => some (Char.ofNat 8)
  | 'v' => some (Char.ofNat 11)
  | 'f' => some (Char.ofNat 12)
  | 'n' => some '\n'
  | 'r' => some '\r'
  | 't' => some '\t'
  | '\\' => some '\\'
  | '?' => some '?'
  | '\x60' => some '\x60'
  | _ => none

/-- The number of hexadecimal digits behind an escape letter. -/
def hexWidth? : Char → Option Nat
  | 'x' => some 2
  | 'u' => some 4
  | 'U' => some 8
  | _ => none

/-- What an escape letter stands for, given the characters behind it, and how many of those it
takes. An escaped quotation mark of the other kind keeps its backslash. -/
def escape (mark letter : Char) (rest : List Char) : Except Fault (List Char × Nat) :=
  if isMark letter then .ok (if letter = mark then [letter] else ['\\', letter], 0)
  else
    match hexWidth? letter with
    | some width => (ofHexadecimal (rest.take width)).map fun c => ([c], width)
    | none =>
      if '0' ≤ letter ∧ letter ≤ '3' then
        (ofOctal (letter :: rest.take 2)).map fun c => ([c], 2)
      else
        match letter? letter with
        | some c => .ok ([c], 0)
        | none => .error (.letter letter)

/-- The text of a body that begins at a place, up to its closing mark; a failure comes with the
place of its escape letter. Digits are looked for up to and with the mark. -/
def decode (mark : Char) : Nat → Nat → List Char → Except (Fault × Nat) (List Char)
  | 0, _, _ => .ok []
  | _, _, [] => .ok []
  | fuel + 1, place, '\\' :: letter :: rest =>
    match escape mark letter (rest ++ [mark]) with
    | .error fault => .error (fault, place + 1)
    | .ok (decoded, taken) =>
      (decode mark fuel (place + 2 + taken) (rest.drop taken)).map (decoded ++ ·)
  | fuel + 1, place, c :: rest => (decode mark fuel (place + 1) rest).map (c :: ·)

/-- The text of a raw body: everything stands for itself, except that the closing mark may be
escaped. -/
def decodeRaw (mark : Char) : List Char → List Char
  | [] => []
  | '\\' :: c :: rest =>
    if c = mark then c :: decodeRaw mark rest else '\\' :: c :: decodeRaw mark rest
  | c :: rest => c :: decodeRaw mark rest

/-! ## Descriptions -/

/-- The description of digits that are none. -/
def Fault.describeDigits (name : String) (digits : List Char) : String :=
  Describe.record name
    [("source", Describe.record "ParseIntError" [("kind", "InvalidDigit")]),
      ("string", Describe.quoted (String.ofList digits))]

/-- The description of a failure at a place of a text that is given with its marks. -/
def Fault.describe (whole : String) (place : Nat) (fault : Fault) : String :=
  let position := [("index", toString place), ("string", Describe.quoted whole)]
  let unicode := fun source => Describe.record "InvalidUnicode" (("source", source) :: position)
  match fault with
  | .letter c =>
    Describe.record "InvalidEscape"
      (("escape", Describe.quoted (String.ofList ['\\', c])) :: position)
  | .hexadecimal digits => unicode (describeDigits "Hex" digits)
  | .octal digits => unicode (describeDigits "Oct" digits)
  | .codePoint n => unicode (Describe.record "Unicode" [("value", toString n)])

end Quoted

end Cel

end Warden
