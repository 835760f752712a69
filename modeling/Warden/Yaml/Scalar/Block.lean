import Warden.Yaml.Cursor
/-! # Block scalars
A block scalar consists of the indented lines below a `|` or `>`. A literal one keeps its line
breaks; a folded one joins lines of which neither starts with a blank. The header may give the
indentation, and says what becomes of the line breaks at the end. -/

namespace Warden

namespace Yaml

/-- What becomes of the line breaks at the end of a block scalar. -/
inductive Chomping where
  /-- All are dropped. -/
  | strip
  /-- One is kept. -/
  | clip
  /-- All are kept. -/
  | keep
  deriving DecidableEq, Repr

/-- The header of a block scalar. -/
structure BlockHeader where
  /-- What becomes of the line breaks at the end. -/
  chomping : Chomping := .clip
  /-- The indentation, relative to the surrounding block. -/
  increment : Option Nat := none
  deriving DecidableEq, Repr

namespace BlockHeader

/-- Read a sign for the line breaks at the end. -/
def chomping? : List Char → Option Chomping
  | '+' :: _ => some .keep
  | '-' :: _ => some .strip
  | _ => none

/-- Read a digit for the indentation; zero is an error. -/
def increment? : List Char → Option (Option Nat)
  | [] => some none
  | c :: _ =>
    if c = '0' then none
    else if c.isDigit then some (some (c.toNat - '0'.toNat))
    else some none

/-- Read the two signs, in either order. -/
def signs? (cursor : Cursor) : Option (BlockHeader × Cursor) := do
  match chomping? cursor.rest with
  | some chomping =>
    let next := cursor.skip 1
    match ← increment? next.rest with
    | some n => return ({ chomping, increment := some n }, next.skip 1)
    | none => return ({ chomping }, next)
  | none =>
    match ← increment? cursor.rest with
    | some n =>
      let next := cursor.skip 1
      match chomping? next.rest with
      | some chomping => return ({ chomping, increment := some n }, next.skip 1)
      | none => return ({ increment := some n }, next)
    | none => return ({}, cursor)

/-- Read a header behind its first character, up to the start of the next line. Only blanks and a
comment may follow the signs. -/
def read? (cursor : Cursor) : Option (BlockHeader × Cursor) := do
  let (header, after) ← signs? cursor
  let after := after.skipBlanks
  let after := if after.peek? = some '#' then after.skipLine else after
  match after.lineBreak? with
  | some (_, next) => return (header, next)
  | none => if after.rest.isEmpty then return (header, after) else none

end BlockHeader

/-- The lines without text in front of a line of a block scalar. `indent` is the indentation, if it
is known, and `widest` the largest column seen. A tab must not stand within the indentation. -/
def blankLines? (indent : Option Nat) (fuel widest : Nat) (cursor : Cursor) :
    Option (List Char × Nat × Cursor) :=
  match fuel with
  | 0 => some ([], widest, cursor)
  | fuel + 1 =>
    let spaces := (cursor.rest.takeWhile (· = ' ')).length
    let count := match indent with
      | none => spaces
      | some n => min spaces (n - cursor.column)
    let here := cursor.skip count
    let widest := max widest here.column
    let within := match indent with
      | none => true
      | some n => decide (here.column < n)
    if within && here.peek? = some '\t' then none
    else match here.lineBreak? with
      | none => some ([], widest, here)
      | some (c, next) =>
        (blankLines? indent fuel widest next).map fun (breaks, rest) => (c :: breaks, rest)

/-- Read the lines of a block scalar at a known indentation. `first` is the line break in front of
the cursor, `others` are those of the lines without text that follow it, and `blank` tells whether
the former line started with a blank. Returns the text and the line breaks at its end. -/
def blockLines? (literal : Bool) (indent fuel : Nat) (first : Option Char) (others : List Char)
    (blank : Bool) (cursor : Cursor) : Option (List Char × Option Char × List Char × Cursor) :=
  match fuel with
  | 0 => some ([], first, others, cursor)
  | fuel + 1 =>
    if cursor.column ≠ indent ∨ cursor.rest.isEmpty then some ([], first, others, cursor)
    else do
      let startsBlank := cursor.rest.head?.any isBlank
      let joined :=
        if !literal && first = some '\n' && !blank && !startsBlank then
          if others.isEmpty then [' '] else others
        else first.toList ++ others
      let (line, after) := cursor.span fun c => !isBreak c
      let (first, next) := match after.lineBreak? with
        | some (c, next) => (some c, next)
        | none => (none, after)
      let (others, _, next) ← blankLines? (some indent) (next.rest.length + 1) 0 next
      let (text, atEnd) ← blockLines? literal indent fuel first others startsBlank next
      return (joined ++ line ++ text, atEnd)

/-- Read a block scalar from its first character on. Lines belong to it as far as they are indented
more than the surrounding block, whose indentation is `parent`. -/
def blockScalar? (literal : Bool) (parent : Int) (cursor : Cursor) : Option (String × Cursor) := do
  let (header, body) ← BlockHeader.read? (cursor.skip 1)
  let given := header.increment.map fun n => parent.toNat + n
  let (others, widest, start) ← blankLines? given (body.rest.length + 1) 0 body
  let indent := given.getD (max widest (max (parent + 1).toNat 1))
  let (text, first, others, after) ←
    blockLines? literal indent (start.rest.length + 1) none others false start
  let ending := match header.chomping with
    | .strip => []
    | .clip => first.toList
    | .keep => first.toList ++ others
  return (String.ofList (text ++ ending), after)

end Yaml

end Warden
