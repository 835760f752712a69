import Warden.Cel.Quoted
import Warden.Number.Decimal
/-! # Tokens of expressions
An expression is cut into tokens, each as long as possible. A sign in front of digits belongs to the
number, so that `n -1` is two tokens and `n - 1` is three. White space and comments separate tokens
and are dropped. The tokens of a text end where no token begins, and a literal may be well formed
without having a value; whether either is to blame depends on the tokens before it, so that both are
tokens of their own.

Literals of bytes and hexadecimal integers, which the language has too, are left out. -/

namespace Warden

namespace Cel

/-- A token of an expression. -/
inductive Token where
  /-- A signed 64-bit integer. -/
  | int (value : Int)
  /-- A binary64. -/
  | double (value : Float)
  /-- A text. -/
  | text (value : String)
  /-- A name. -/
  | name (name : String)
  /-- An operator, a bracket or a keyword. -/
  | symbol (symbol : String)
  /-- A literal without a value. Reading it panics. -/
  | unusable (message : String)
  /-- Characters that begin no token. They come last. -/
  | unknown
  deriving DecidableEq, Repr

namespace Token

/-- White space. -/
def isSpace (c : Char) : Bool :=
  let n := c.toNat
  (0x9 ≤ n && n ≤ 0xD) || n = 0x20 || n = 0x85 || n = 0xA0 || n = 0x1680
    || (0x2000 ≤ n && n ≤ 0x200A) || n = 0x2028 || n = 0x2029 || n = 0x202F || n = 0x205F
    || n = 0x3000

/-- Characters at the start of a name. -/
def startsName (c : Char) : Bool := c.isAlpha || c = '_'

/-- Characters of a name. -/
def isNameChar (c : Char) : Bool := c.isAlphanum || c = '_'

/-- Words that are no names. -/
def keywords : List String := ["true", "false", "null", "in"]

/-- Operators and brackets, longer ones first. -/
def symbols : List String :=
  ["||", "&&", "<=", ">=", "==", "!=", "!!", "--", "?", ":", "<", ">", "+", "-", "*", "/", "%", "!",
    ".", ",", "(", ")", "[", "]", "\x7b", "\x7d"]

/-! ## Literals without a value -/

/-- The panic of a literal that cannot be read, given what is wrong with it. -/
def unreadable (description : String) : Token :=
  .unusable ("called \x60Result::unwrap()\x60 on an \x60Err\x60 value: " ++ description)

/-- The panic of an integer literal. -/
def unreadableInteger (kind : String) : Token :=
  unreadable (Describe.record "ParseIntError" [("kind", kind)])

/-! ## Numbers -/

/-- The token of an integer, which has to fit. -/
def ofInteger (n : Int) : Token :=
  if n < minWord then unreadableInteger "NegOverflow"
  else if maxWord < n then unreadableInteger "PosOverflow"
  else .int n

/-- The token of an integer without sign, a space and the letter `u`. It has the form of an unsigned
literal, but the space keeps it from being read. -/
def ofUnsigned (negative : Bool) (magnitude : Nat) : Token :=
  unreadableInteger (if !negative && maxUnsigned < magnitude then "PosOverflow" else "InvalidDigit")

/-- A number at the start of a text, and what follows it. Digits alone are an integer; a point needs
digits behind it, and an exponent needs digits too. A plus sign stands only in front of a number
with point or exponent. -/
def number? (text : List Char) : Option (Token × List Char) :=
  let (negative, unsigned) := Decimal.spanSign text
  let (whole, rest) := Decimal.spanDigits unsigned
  let (fraction, afterFraction) := match rest with
    | '.' :: digits => Decimal.spanDigits digits
    | _ => ([], rest)
  if !fraction.isEmpty then
    let (exponent, after) := (Decimal.spanExponent afterFraction).getD (0, afterFraction)
    some (.double (Decimal.nearest ⟨negative, whole, fraction, exponent⟩), after)
  else if whole.isEmpty then none
  else
    match Decimal.spanExponent rest with
    | some (exponent, after) =>
      some (.double (Decimal.nearest ⟨negative, whole, [], exponent⟩), after)
    | none =>
      let magnitude := Decimal.ofDigits whole
      if text.head? = some '+' then none
      else
        match rest with
        | ' ' :: 'u' :: after | ' ' :: 'U' :: after => some (ofUnsigned negative magnitude, after)
        | _ => some (ofInteger (if negative then -(magnitude : Int) else magnitude), rest)

/-! ## Texts -/

/-- The token of a text without a prefix, given its body. -/
def ofBody (mark : Char) (body : List Char) : Token :=
  match Quoted.decode mark (body.length + 1) 1 body with
  | .ok decoded => .text (String.ofList decoded)
  | .error (fault, place) =>
    unreadable (fault.describe (String.ofList (mark :: body ++ [mark])) place)

/-- A text in quotation marks at the start of a text, and what follows it. -/
def text? (chars : List Char) : Option (Token × List Char) :=
  let (isRaw, unprefixed) := match chars with
    | 'r' :: rest | 'R' :: rest => (true, rest)
    | _ => (false, chars)
  match unprefixed with
  | [] => none
  | mark :: rest =>
    if Quoted.isMark mark then
      (Quoted.body? mark rest).map fun (body, after) =>
        if isRaw then (.text (String.ofList (Quoted.decodeRaw mark body)), after)
        else (ofBody mark body, after)
    else none

/-! ## All tokens -/

/-- A name or keyword at the start of a text, and what follows it. -/
def word? (text : List Char) : Option (Token × List Char) :=
  if text.head?.any startsName then
    let word := String.ofList (text.takeWhile isNameChar)
    some (if keywords.contains word then .symbol word else .name word, text.dropWhile isNameChar)
  else none

/-- An operator or bracket at the start of a text, and what follows it. -/
def symbol? (text : List Char) : Option (Token × List Char) :=
  (symbols.find? fun symbol => symbol.toList.isPrefixOf text).map fun symbol =>
    (.symbol symbol, text.drop symbol.length)

/-- The token at the start of a text, and what follows it. -/
def first? (text : List Char) : Option (Token × List Char) :=
  (text? text).or ((word? text).or ((number? text).or (symbol? text)))

/-- Drop white space and comments at the start of a text. -/
def skipSpace : Nat → List Char → List Char
  | 0, chars => chars
  | fuel + 1, chars =>
    match chars.dropWhile isSpace with
    | '/' :: '/' :: rest => skipSpace fuel (rest.dropWhile fun c => c ≠ '\n' && c ≠ '\r')
    | rest => rest

/-- Cut a text into tokens. -/
def all : Nat → List Char → List Token
  | 0, _ => [.unknown]
  | fuel + 1, chars =>
    match skipSpace (chars.length + 1) chars with
    | [] => []
    | rest =>
      match first? rest with
      | some (token, after) => token :: all fuel after
      | none => [.unknown]

/-- The tokens of an expression. -/
def ofText (text : String) : List Token := all (text.toList.length + 1) text.toList

end Token

end Cel

end Warden
