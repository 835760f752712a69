import Warden.Number.Decimal
import Warden.Yaml.Scalar.Block
import Warden.Yaml.Scalar.Plain
import Warden.Yaml.Scalar.Quoted
/-! # YAML tokens
The tokens of a YAML text. Indentation becomes tokens of its own: a block opens where a line is
indented more than the block around it, and closes where a line is indented less. A key is only
recognised as one when the colon behind it is read, so that the tokens in front of a key are put in
afterwards, at the place where the key started.

**Tags are left out**: a text with a tag (`!!str`, `!x`) or with a declaration of tags (`%TAG`) has
no tokens here, although it is a YAML text. -/

namespace Warden

namespace Yaml

/-- A token. -/
inductive Token where
  /-- A declared version; true if it is one that can be read. -/
  | version (supported : Bool)
  /-- The mark in front of a document. -/
  | documentStart
  /-- The mark behind a document. -/
  | documentEnd
  /-- The start of a list of indented items. -/
  | blockSequence
  /-- The start of indented entries. -/
  | blockMapping
  /-- The end of indented items or entries. -/
  | blockEnd
  /-- An opening bracket. -/
  | flowSequence
  /-- A closing bracket. -/
  | flowSequenceEnd
  /-- An opening brace. -/
  | flowMapping
  /-- A closing brace. -/
  | flowMappingEnd
  /-- The dash in front of an item. -/
  | item
  /-- The comma between items or entries. -/
  | comma
  /-- The start of a key. -/
  | key
  /-- The colon in front of a value. -/
  | value
  /-- A reference to an anchored node. -/
  | alias (name : String)
  /-- The name of the node that follows. -/
  | anchor (name : String)
  /-- A scalar. -/
  | scalar (text : String) (plain : Bool)
  deriving DecidableEq, Repr

/-- A place where a key may have started. -/
structure KeyStart where
  /-- Whether nothing but a key can stand there. -/
  required : Bool
  /-- The number of tokens in front of it. -/
  position : Nat
  /-- The place in the text. -/
  mark : Mark
  deriving DecidableEq, Repr

/-- The tokens read so far and what is left to read. -/
structure Lexer where
  /-- What is left of the text. -/
  cursor : Cursor
  /-- The tokens read so far. -/
  tokens : List Token := []
  /-- The indentation of the current block; `-1` outside of all blocks. -/
  indent : Int := -1
  /-- The indentations of the blocks around it, the innermost first. -/
  outer : List Int := []
  /-- For every open bracket, and for the block around them, where a key may have started. -/
  keys : List (Option KeyStart) := [none]
  /-- Whether a key may start here. -/
  keyAllowed : Bool := true
  deriving DecidableEq, Repr

namespace Lexer

/-- Whether the cursor is between brackets. -/
def inFlow (lexer : Lexer) : Bool := 1 < lexer.keys.length

/-- The column of the next character. -/
def column (lexer : Lexer) : Nat := lexer.cursor.column

/-- Append a token. -/
def emit (lexer : Lexer) (token : Token) : Lexer := { lexer with tokens := lexer.tokens ++ [token] }

/-- Pass over characters of the same line. -/
def skip (lexer : Lexer) (count : Nat) : Lexer := { lexer with cursor := lexer.cursor.skip count }

/-- The longest distance between the start of a key and its colon, in bytes. -/
def keyReach : Nat := 1024

/-- Give up on starts of keys that are on a former line or too far away. A required one is then an
error. -/
def forgetStaleKeys? (lexer : Lexer) : Option Lexer := do
  let here := lexer.cursor.mark
  let keys ← lexer.keys.mapM fun key =>
    match key with
    | none => some none
    | some start =>
      if start.mark.line < here.line ∨ start.mark.index + keyReach < here.index then
        if start.required then none else some none
      else some (some start)
  return { lexer with keys }

/-- Give up on the start of a key at the current level; an error if it is required. -/
def forgetKey? (lexer : Lexer) : Option Lexer :=
  match lexer.keys with
  | some start :: outer =>
    if start.required then none else some { lexer with keys := none :: outer }
  | _ => some lexer

/-- Note that a key may start here, if one may. -/
def noteKey? (lexer : Lexer) : Option Lexer := do
  if !lexer.keyAllowed then return lexer
  let lexer ← lexer.forgetKey?
  let start : KeyStart :=
    { required := !lexer.inFlow && lexer.indent = lexer.column
      position := lexer.tokens.length
      mark := lexer.cursor.mark }
  return { lexer with keys := some start :: lexer.keys.tail }

/-- Allow or forbid keys. -/
def allowKeys (lexer : Lexer) (keyAllowed : Bool) : Lexer := { lexer with keyAllowed }

/-- Open a block at a column behind the current indentation, its token being put in at a position.
Between brackets there are no blocks. -/
def openBlock (lexer : Lexer) (column position : Nat) (token : Token) : Lexer :=
  if lexer.inFlow || column ≤ lexer.indent then lexer
  else { lexer with
    tokens := lexer.tokens.insertIdx position token
    indent := column
    outer := lexer.indent :: lexer.outer }

/-- The number of blocks whose indentation exceeds a column, the innermost first. -/
def deeperBlocks (column : Int) (indent : Int) : List Int → Nat
  | [] => 0
  | next :: outer => if column < indent then deeperBlocks column next outer + 1 else 0

/-- Close the blocks whose indentation exceeds a column. -/
def closeBlocks (lexer : Lexer) (column : Int) : Lexer :=
  if lexer.inFlow then lexer
  else
    let count := deeperBlocks column lexer.indent lexer.outer
    { lexer with
      tokens := lexer.tokens ++ List.replicate count .blockEnd
      indent := (lexer.indent :: lexer.outer).getD count (-1)
      outer := lexer.outer.drop count }

/-- Drop white space and comments in front of the next token. At the start of a line, where a key
may start, a tab is no white space, but a mark of the byte order is. -/
def skipSpace (fuel : Nat) (lexer : Lexer) : Lexer :=
  match fuel with
  | 0 => lexer
  | fuel + 1 =>
    let blank := fun c => c = ' ' || ((lexer.inFlow || !lexer.keyAllowed) && c = '\t')
    let cursor := (lexer.cursor.skipByteOrderMark.span blank).2
    let cursor := if cursor.peek? = some '#' then cursor.skipLine else cursor
    match cursor.lineBreak? with
    | some (_, next) =>
      skipSpace fuel { lexer with cursor := next, keyAllowed := lexer.keyAllowed || !lexer.inFlow }
    | none => { lexer with cursor }

/-- The characters of names. -/
def isNameChar (c : Char) : Bool := c.isAlphanum || c = '_' || c = '-'

/-- Read a name behind a one-character mark. -/
def name? (cursor : Cursor) : Option (String × Cursor) :=
  let (name, after) := (cursor.skip 1).span isNameChar
  let ends := after.atBlank
    || after.peek?.any fun c => ['?', ':', ',', ']', '\x7d', '%', '@', '\x60'].contains c
  if name.isEmpty || !ends then none else some (String.ofList name, after)

/-- The longest number in a declaration. -/
def maxVersionDigits : Nat := 9

/-- Read a number of a declaration. -/
def versionNumber? (cursor : Cursor) : Option (Nat × Cursor) :=
  let (digits, after) := cursor.span Char.isDigit
  if digits.isEmpty || maxVersionDigits < digits.length then none
  else some (Decimal.ofDigits digits, after)

/-- Read a declaration: the version of the language. No other declaration is read, and so none of
tags. -/
def declaration? (lexer : Lexer) : Option Lexer := do
  let lexer ← (lexer.closeBlocks (-1)).forgetKey?
  let (word, after) := (lexer.cursor.skip 1).span isNameChar
  if word ≠ "YAML".toList then none
  let (major, point) ← versionNumber? after.skipBlanks
  if point.peek? ≠ some '.' then none
  let (minor, after) ← versionNumber? (point.skip 1)
  let after := after.skipBlanks
  let after := if after.peek? = some '#' then after.skipLine else after
  let supported := major = 1 && (minor = 1 || minor = 2)
  let lexer := (lexer.emit (.version supported)).allowKeys false
  match after.lineBreak? with
  | some (_, next) => return { lexer with cursor := next }
  | none => if after.rest.isEmpty then return { lexer with cursor := after } else none

/-- Read a mark in front of or behind a document. -/
def documentMark? (lexer : Lexer) (token : Token) : Option Lexer := do
  let lexer ← (lexer.closeBlocks (-1)).forgetKey?
  return ((lexer.allowKeys false).emit token).skip 3

/-- Read an opening bracket. -/
def openFlow? (lexer : Lexer) (token : Token) : Option Lexer := do
  let lexer ← lexer.noteKey?
  return (({ lexer with keys := none :: lexer.keys }.allowKeys true).emit token).skip 1

/-- Read a closing bracket. -/
def closeFlow? (lexer : Lexer) (token : Token) : Option Lexer := do
  let lexer ← lexer.forgetKey?
  let keys := if lexer.inFlow then lexer.keys.tail else lexer.keys
  return (({ lexer with keys }.allowKeys false).emit token).skip 1

/-- Read a comma. -/
def comma? (lexer : Lexer) : Option Lexer := do
  let lexer ← lexer.forgetKey?
  return ((lexer.allowKeys true).emit .comma).skip 1

/-- Read the dash of an item. -/
def item? (lexer : Lexer) : Option Lexer := do
  if !lexer.inFlow && !lexer.keyAllowed then none
  let lexer ← (lexer.openBlock lexer.column lexer.tokens.length .blockSequence).forgetKey?
  return ((lexer.allowKeys true).emit .item).skip 1

/-- Read the question mark of a key. -/
def key? (lexer : Lexer) : Option Lexer := do
  if !lexer.inFlow && !lexer.keyAllowed then none
  let lexer ← (lexer.openBlock lexer.column lexer.tokens.length .blockMapping).forgetKey?
  return ((lexer.allowKeys !lexer.inFlow).emit .key).skip 1

/-- Read the colon of a value. If a key may have started at this level, it did. -/
def value? (lexer : Lexer) : Option Lexer := do
  match lexer.keys with
  | some start :: outer =>
    let lexer := { lexer with
      keys := none :: outer, tokens := lexer.tokens.insertIdx start.position .key }
    let lexer := lexer.openBlock start.mark.column start.position .blockMapping
    return ((lexer.allowKeys false).emit .value).skip 1
  | _ =>
    if !lexer.inFlow && !lexer.keyAllowed then none
    let lexer := lexer.openBlock lexer.column lexer.tokens.length .blockMapping
    return ((lexer.allowKeys !lexer.inFlow).emit .value).skip 1

/-- Read a reference. -/
def alias? (lexer : Lexer) : Option Lexer := do
  let lexer ← lexer.noteKey?
  let (name, cursor) ← name? lexer.cursor
  return ({ lexer with cursor }.allowKeys false).emit (.alias name)

/-- Read the name of a node. -/
def anchor? (lexer : Lexer) : Option Lexer := do
  let lexer ← lexer.noteKey?
  let (name, cursor) ← name? lexer.cursor
  return ({ lexer with cursor }.allowKeys false).emit (.anchor name)

/-- Read a block scalar. -/
def blockScalar? (lexer : Lexer) (literal : Bool) : Option Lexer := do
  let lexer ← lexer.forgetKey?
  let (text, cursor) ← Yaml.blockScalar? literal lexer.indent lexer.cursor
  return ({ lexer with cursor }.allowKeys true).emit (.scalar text false)

/-- Read a quoted scalar. -/
def quotedScalar? (lexer : Lexer) (single : Bool) : Option Lexer := do
  let lexer ← lexer.noteKey?
  let (text, cursor) ← Yaml.quotedScalar? single lexer.cursor
  return ({ lexer with cursor }.allowKeys false).emit (.scalar text false)

/-- Read a plain scalar. -/
def plainScalar? (lexer : Lexer) : Option Lexer := do
  let lexer ← lexer.noteKey?
  let (text, broken, cursor) ←
    Yaml.plainScalar? lexer.inFlow (lexer.indent + 1).toNat lexer.cursor
  return ({ lexer with cursor }.allowKeys broken).emit (.scalar text true)

/-- Characters with which no plain scalar starts, at least not without looking further. -/
def isIndicator (c : Char) : Bool :=
  ['-', '?', ':', ',', '[', ']', '\x7b', '\x7d', '#', '&', '*', '!', '|', '>', '\'', '"', '%', '@',
    '\x60'].contains c

/-- Whether a plain scalar starts with a character in front of a rest. -/
def startsPlain (inFlow : Bool) (c : Char) (rest : List Char) : Bool :=
  (!isBlank c && !isBreak c && !isIndicator c)
    || (c = '-' && !rest.head?.any isBlank)
    || (!inFlow && (c = '?' || c = ':') && !startsBlank rest)

/-- Read the token that starts with a character. No token starts with an exclamation mark, as tags
are left out. -/
def token? (lexer : Lexer) (c : Char) (rest : List Char) : Option Lexer :=
  let apart := startsBlank rest
  if lexer.column = 0 && c = '%' then lexer.declaration?
  else if lexer.cursor.atDocumentMark '-' then lexer.documentMark? .documentStart
  else if lexer.cursor.atDocumentMark '.' then lexer.documentMark? .documentEnd
  else if c = '[' then lexer.openFlow? .flowSequence
  else if c = '\x7b' then lexer.openFlow? .flowMapping
  else if c = ']' then lexer.closeFlow? .flowSequenceEnd
  else if c = '\x7d' then lexer.closeFlow? .flowMappingEnd
  else if c = ',' then lexer.comma?
  else if c = '-' && apart then lexer.item?
  else if c = '?' && (lexer.inFlow || apart) then lexer.key?
  else if c = ':' && (lexer.inFlow || apart) then lexer.value?
  else if c = '*' then lexer.alias?
  else if c = '&' then lexer.anchor?
  else if c = '|' && !lexer.inFlow then lexer.blockScalar? true
  else if c = '>' && !lexer.inFlow then lexer.blockScalar? false
  else if c = '\'' then lexer.quotedScalar? true
  else if c = '"' then lexer.quotedScalar? false
  else if startsPlain lexer.inFlow c rest then lexer.plainScalar?
  else none

/-- Close everything at the end of the text. -/
def finish? (lexer : Lexer) : Option (List Token) := do
  let lexer ← (lexer.closeBlocks (-1)).forgetKey?
  return lexer.tokens

/-- Read tokens up to the end of the text. -/
def run? (fuel : Nat) (lexer : Lexer) : Option (List Token) :=
  match fuel with
  | 0 => none
  | fuel + 1 => do
    let lexer ← (lexer.skipSpace (lexer.cursor.rest.length + 1)).forgetStaleKeys?
    let lexer := lexer.closeBlocks lexer.column
    match lexer.cursor.rest with
    | [] => lexer.finish?
    | c :: rest => run? fuel (← lexer.token? c rest)

end Lexer

/-- The tokens of a text. -/
def Token.ofText? (text : String) : Option (List Token) :=
  if text.toList.all isAllowed then
    Lexer.run? (text.toList.length + 2) { cursor := .start text }
  else none

end Yaml

end Warden
