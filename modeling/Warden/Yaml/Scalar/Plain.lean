import Warden.Yaml.Cursor
/-! # Plain scalars
A scalar without quotation marks runs until something that cannot belong to it: a comment, a colon
in front of white space, inside brackets also a bracket or comma, and outside of them a line that is
not indented enough. -/

namespace Warden

namespace Yaml

/-- Characters that end a plain scalar between brackets. -/
def isFlowIndicator (c : Char) : Bool :=
  c = ',' || c = '[' || c = ']' || c = '\x7b' || c = '\x7d'

/-- Split off a word of a plain scalar. Between brackets a colon in front of a bracket, comma or
question mark is an error. -/
def plainWord? (flow : Bool) : List Char → Option (List Char)
  | [] => some []
  | c :: rest =>
    if isBlank c || isBreak c then some []
    else if flow && c = ':' && rest.head?.any (fun d => isFlowIndicator d || d = '?') then none
    else if (c = ':' && startsBlank rest) || (flow && isFlowIndicator c) then some []
    else (plainWord? flow rest).map (c :: ·)

/-- Read words and the gaps between them; `gap` precedes the cursor and counts only if a word
follows. The second result tells whether the scalar is followed by a line break. -/
def plainWords? (flow : Bool) (margin fuel : Nat) (gap : Gap) (cursor : Cursor) :
    Option (List Char × Bool × Cursor) :=
  match fuel with
  | 0 => some ([], gap.broken, cursor)
  | fuel + 1 =>
    if cursor.peek? = some '#' || cursor.atDocumentEdge then some ([], gap.broken, cursor)
    else do
      let word ← plainWord? flow cursor.rest
      if word.isEmpty then return ([], gap.broken, cursor)
      let after := cursor.skip word.length
      if after.rest.isEmpty || !after.atBlank then return (gap.text ++ word, false, after)
      let (next, following) ← Gap.read? margin after.rest.length {} after
      if !flow && following.column < margin then
        return (gap.text ++ word, next.broken, following)
      let (words, broken, behind) ← plainWords? flow margin fuel next following
      return (gap.text ++ word ++ words, broken, behind)

/-- Read a plain scalar whose further lines start at column `margin` or behind it. -/
def plainScalar? (flow : Bool) (margin : Nat) (cursor : Cursor) :
    Option (String × Bool × Cursor) := do
  let (text, broken, after) ← plainWords? flow margin (cursor.rest.length + 1) {} cursor
  return (String.ofList text, broken, after)

end Yaml

end Warden
