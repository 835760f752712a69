/-! # Positions in a YAML text
A `Cursor` is what is left of a text together with where it starts. Line breaks come in several
forms and are read as one character each. A `Gap` is the white space between two words of a scalar:
inside a line it is kept, while line breaks are *folded*, so that a single one reads as a space and
of several the first one is dropped. -/

namespace Warden

namespace Yaml

/-- A place in a text. -/
structure Mark where
  /-- The number of bytes in front of it. -/
  index : Nat := 0
  /-- The number of lines in front of its line. -/
  line : Nat := 0
  /-- The number of characters in front of it on its line. -/
  column : Nat := 0
  deriving DecidableEq, Repr

/-- The rest of a text and where it starts. -/
structure Cursor where
  /-- The characters that are left. -/
  rest : List Char
  /-- Where they start. -/
  mark : Mark := {}
  deriving DecidableEq, Repr

/-- Characters that end a line. -/
def isBreak (c : Char) : Bool :=
  c = '\n' || c = '\r' || c = '\u0085' || c = '\u2028' || c = '\u2029'

/-- Spaces and tabs. -/
def isBlank (c : Char) : Bool := c = ' ' || c = '\t'

/-- Whether a text starts with a blank or a line break, or is at its end. -/
def startsBlank : List Char → Bool
  | [] => true
  | c :: _ => isBlank c || isBreak c

/-- The mark of the byte order, which may stand at the start of a line. -/
def byteOrderMark : Char := '\uFEFF'

/-- Whether a text may contain a character. Most control characters are not allowed. -/
def isAllowed (c : Char) : Bool :=
  let n := c.toNat
  n = 0x9 || n = 0xA || n = 0xD || n = 0x85 || (0x20 ≤ n && n ≤ 0x7E) || (0xA0 ≤ n && n ≤ 0xD7FF)
    || (0xE000 ≤ n && n ≤ 0xFFFD) || 0x10000 ≤ n

/-- The number of bytes that characters take. -/
def byteLength : List Char → Nat
  | [] => 0
  | c :: rest => c.utf8Size + byteLength rest

namespace Cursor

/-- The start of a text. -/
def start (text : String) : Cursor := { rest := text.toList }

/-- The column of the next character. -/
def column (cursor : Cursor) : Nat := cursor.mark.column

/-- The next character. -/
def peek? (cursor : Cursor) : Option Char := cursor.rest.head?

/-- Whether a blank, a line break or the end comes next. -/
def atBlank (cursor : Cursor) : Bool := startsBlank cursor.rest

/-- Pass over characters of the same line. -/
def skip (cursor : Cursor) (count : Nat) : Cursor :=
  { rest := cursor.rest.drop count
    mark := { cursor.mark with
      index := cursor.mark.index + byteLength (cursor.rest.take count)
      column := cursor.mark.column + count } }

/-- Split off the characters of the same line that pass a test. -/
def span (cursor : Cursor) (pass : Char → Bool) : List Char × Cursor :=
  let taken := cursor.rest.takeWhile pass
  (taken, cursor.skip taken.length)

/-- Pass over blanks. -/
def skipBlanks (cursor : Cursor) : Cursor := (cursor.span isBlank).2

/-- Pass over a mark of the byte order at the start of a line. -/
def skipByteOrderMark (cursor : Cursor) : Cursor :=
  if cursor.column = 0 && cursor.peek? = some byteOrderMark then cursor.skip 1 else cursor

/-- Pass over everything up to the end of the line. -/
def skipLine (cursor : Cursor) : Cursor := (cursor.span fun c => !isBreak c).2

/-- The start of the next line, `count` characters on. -/
def nextLine (cursor : Cursor) (count : Nat) : Cursor :=
  { rest := cursor.rest.drop count
    mark :=
      { index := cursor.mark.index + byteLength (cursor.rest.take count)
        line := cursor.mark.line + 1 } }

/-- Read a line break: the character that it counts as, and the start of the next line. The line and
paragraph separators count as themselves, every other form as a line feed. -/
def lineBreak? (cursor : Cursor) : Option (Char × Cursor) :=
  match cursor.rest with
  | '\r' :: '\n' :: _ => some ('\n', cursor.nextLine 2)
  | c :: _ =>
    if c = '\u2028' ∨ c = '\u2029' then some (c, cursor.nextLine 1)
    else if isBreak c then some ('\n', cursor.nextLine 1)
    else none
  | [] => none

/-- Whether a line starts here with three characters that mark the start or the end of a document. -/
def atDocumentMark (cursor : Cursor) (mark : Char) : Bool :=
  cursor.column = 0 && cursor.rest.take 3 = [mark, mark, mark] && startsBlank (cursor.rest.drop 3)

/-- Whether a document starts or ends here. -/
def atDocumentEdge (cursor : Cursor) : Bool :=
  cursor.atDocumentMark '-' || cursor.atDocumentMark '.'

end Cursor

/-- White space between the words of a scalar. -/
structure Gap where
  /-- Blanks in front of the first line break. -/
  blanks : List Char := []
  /-- Whether a line break was read or escaped. -/
  broken : Bool := false
  /-- The first line break, unless it was escaped. -/
  first : Option Char := none
  /-- The other line breaks. -/
  others : List Char := []

namespace Gap

/-- The characters that the gap stands for. -/
def text (gap : Gap) : List Char :=
  if !gap.broken then gap.blanks
  else match gap.first with
    | some '\n' => if gap.others.isEmpty then [' '] else gap.others
    | some c => c :: gap.others
    | none => gap.others

/-- Add a blank; blanks behind a line break do not count. -/
def addBlank (gap : Gap) (c : Char) : Gap :=
  if gap.broken then gap else { gap with blanks := gap.blanks ++ [c] }

/-- Add a line break; the blanks in front of it do not count any more. -/
def addBreak (gap : Gap) (c : Char) : Gap :=
  if gap.broken then { gap with others := gap.others ++ [c] }
  else { gap with blanks := [], broken := true, first := some c }

/-- Read white space. Behind a line break no tab may stand in a column below `margin`. -/
def read? (margin : Nat) (fuel : Nat) (gap : Gap) (cursor : Cursor) : Option (Gap × Cursor) :=
  match fuel, cursor.rest with
  | 0, _ => some (gap, cursor)
  | _, [] => some (gap, cursor)
  | fuel + 1, c :: _ =>
    if isBlank c then
      if gap.broken && c = '\t' && cursor.column < margin then none
      else read? margin fuel (gap.addBlank c) (cursor.skip 1)
    else
      match cursor.lineBreak? with
      | some (c, next) => read? margin fuel (gap.addBreak c) next
      | none => some (gap, cursor)

end Gap

end Yaml

end Warden
