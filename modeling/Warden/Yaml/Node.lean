import Warden.Yaml.Token
/-! # YAML nodes
The tree that a YAML text describes. Entries keep their order and may repeat a key; what that means
is up to the reader. A reference to an anchored node stays a reference, because it may lead back
into a node that it belongs to. Nodes have no tags. -/

namespace Warden

namespace Yaml

/-- A node of a document. -/
inductive Node where
  /-- A scalar; a plain one is written without quotation marks. -/
  | scalar (text : String) (plain : Bool)
  /-- A list. -/
  | sequence (items : List Node)
  /-- Entries of keys and values. -/
  | mapping (entries : List (Node × Node))
  /-- A reference to the anchored node of a number. -/
  | alias (number : Nat)
  deriving Repr, Inhabited

namespace Node

/-- What stands where nothing is written. -/
def blank : Node := .scalar "" true

mutual

/-- The number of events that describe a node: one for a scalar or a reference, two around items or
entries. -/
def events : Node → Nat
  | .scalar _ _ => 1
  | .alias _ => 1
  | .sequence items => eventsOfItems items + 2
  | .mapping entries => eventsOfEntries entries + 2

/-- The number of events that describe items. -/
def eventsOfItems : List Node → Nat
  | [] => 0
  | item :: rest => events item + eventsOfItems rest

/-- The number of events that describe entries. -/
def eventsOfEntries : List (Node × Node) → Nat
  | [] => 0
  | (key, value) :: rest => events key + events value + eventsOfEntries rest

end

end Node

/-- The anchored nodes of a document. An anchor is numbered by how many different names there were
before it; of several anchors with one number, the last one counts. -/
structure Anchors where
  /-- The number of the last anchor of each name. -/
  numbers : List (String × Nat) := []
  /-- The anchors that were opened, the last one first: their numbers. -/
  opened : List Nat := []
  /-- The nodes of anchors, by how many anchors were opened before. -/
  nodes : List (Nat × Node) := []
  deriving Repr

namespace Anchors

/-- Open an anchor; returns how many were opened before. -/
def opening (anchors : Anchors) (name : String) : Anchors × Nat :=
  let number := anchors.numbers.length
  let others := anchors.numbers.filter fun entry => entry.1 ≠ name
  ({ anchors with numbers := (name, number) :: others, opened := number :: anchors.opened },
    anchors.opened.length)

/-- Note the node of an anchor. -/
def closing (anchors : Anchors) (place : Nat) (node : Node) : Anchors :=
  { anchors with nodes := (place, node) :: anchors.nodes }

/-- The number that a name refers to. -/
def number? (anchors : Anchors) (name : String) : Option Nat := anchors.numbers.lookup name

/-- The node of a number. -/
def node? (anchors : Anchors) (number : Nat) : Option Node :=
  match anchors.opened.findIdx? (· = number) with
  | none => none
  | some fromEnd => anchors.nodes.lookup (anchors.opened.length - 1 - fromEnd)

end Anchors

/-- What a reader of tokens works on. -/
structure Feed where
  /-- The tokens that are left. -/
  tokens : List Token
  /-- The anchors read so far. -/
  anchors : Anchors := {}

/-- A reader of tokens; it fails on tokens that describe no tree. -/
abbrev Parse (α : Type) : Type := StateT Feed Option α

namespace Parse

/-- The next token, which stays. -/
def peek : Parse (Option Token) := fun feed => some (feed.tokens.head?, feed)

/-- Drop the next token. -/
def drop : Parse Unit := fun feed => some ((), { feed with tokens := feed.tokens.tail })

/-- Drop the next token if it is a given one. -/
def accept (token : Token) : Parse Bool := do
  if (← peek) = some token then
    drop
    return true
  else return false

/-- Drop the next token, which has to be a given one. -/
def expect (token : Token) : Parse Unit := do
  if !(← accept token) then failure

/-- Whether the next token is among given ones. -/
def isNext (tokens : List Token) : Parse Bool := do
  match ← peek with
  | none => return false
  | some token => return tokens.contains token

/-- Read an anchor, if there is one; returns its place among the anchors. -/
def anchor : Parse (Option Nat) := do
  match ← peek with
  | some (.anchor name) =>
    drop
    fun feed =>
      let (anchors, place) := feed.anchors.opening name
      some (some place, { feed with anchors })
  | _ => return none

/-- Note the node of an anchor, if there is one. -/
def note (place : Option Nat) (node : Node) : Parse Node := fun feed =>
  match place with
  | none => some (node, feed)
  | some place => some (node, { feed with anchors := feed.anchors.closing place node })

mutual

/-- Read a node. Block lists and entries count as nodes if `block` holds, and items without
indentation of their own if `indentless` holds. -/
def node (block indentless : Bool) : Nat → Parse Node
  | 0 => failure
  | fuel + 1 => do
    match ← peek with
    | some (.alias name) =>
      drop
      fun feed => (feed.anchors.number? name).map fun number => (.alias number, feed)
    | _ =>
      let place ← anchor
      let content ← match ← peek with
        | some (.scalar text plain) =>
          drop
          pure (.scalar text plain)
        | some .flowSequence =>
          drop
          pure (.sequence (← flowItems true fuel))
        | some .flowMapping =>
          drop
          pure (.mapping (← flowEntries true fuel))
        | some .item =>
          if indentless then pure (.sequence (← looseItems fuel))
          else if place.isSome then pure .blank
          else failure
        | some .blockSequence =>
          if block then
            drop
            pure (.sequence (← blockItems fuel))
          else if place.isSome then pure .blank
          else failure
        | some .blockMapping =>
          if block then
            drop
            pure (.mapping (← blockEntries fuel))
          else if place.isSome then pure .blank
          else failure
        | _ => if place.isSome then pure .blank else failure
      note place content

/-- Read a node, unless one of given tokens comes next and nothing is written. -/
def nodeUnless (enders : List Token) (block indentless : Bool) : Nat → Parse Node
  | 0 => failure
  | fuel + 1 => do
    if ← isNext enders then return .blank else node block indentless fuel

/-- Read the items of an indented list. -/
def blockItems : Nat → Parse (List Node)
  | 0 => failure
  | fuel + 1 => do
    if ← accept .item then
      let first ← nodeUnless [.item, .blockEnd] true false fuel
      return first :: (← blockItems fuel)
    else
      expect .blockEnd
      return []

/-- Read the items of a list that is indented no more than the entry it belongs to. -/
def looseItems : Nat → Parse (List Node)
  | 0 => failure
  | fuel + 1 => do
    if ← accept .item then
      let first ← nodeUnless [.item, .key, .value, .blockEnd] true false fuel
      return first :: (← looseItems fuel)
    else return []

/-- Read indented entries. -/
def blockEntries : Nat → Parse (List (Node × Node))
  | 0 => failure
  | fuel + 1 => do
    if ← accept .key then
      let key ← nodeUnless [.key, .value, .blockEnd] true true fuel
      let value ← if ← accept .value then nodeUnless [.key, .value, .blockEnd] true true fuel
        else pure .blank
      return (key, value) :: (← blockEntries fuel)
    else
      expect .blockEnd
      return []

/-- Read the value of an entry between brackets, if there is one. -/
def flowValue (ender : Token) : Nat → Parse Node
  | 0 => failure
  | fuel + 1 => do
    if ← accept .value then nodeUnless [.comma, ender] false false fuel else return .blank

/-- Read the items between brackets. An item with a key is a single entry. -/
def flowItems (first : Bool) : Nat → Parse (List Node)
  | 0 => failure
  | fuel + 1 => do
    if ← accept .flowSequenceEnd then return []
    else
      if !first then expect .comma
      if ← accept .flowSequenceEnd then return []
      else if ← accept .key then
        let key ← if ← isNext [.value, .comma, .flowSequenceEnd] then do
            drop
            pure .blank
          else node false false fuel
        let value ← flowValue .flowSequenceEnd fuel
        return .mapping [(key, value)] :: (← flowItems false fuel)
      else
        let item ← node false false fuel
        return item :: (← flowItems false fuel)

/-- Read the entries between braces. An entry may lack its value. -/
def flowEntries (first : Bool) : Nat → Parse (List (Node × Node))
  | 0 => failure
  | fuel + 1 => do
    if ← accept .flowMappingEnd then return []
    else
      if !first then expect .comma
      if ← accept .flowMappingEnd then return []
      else if ← accept .key then
        let key ← nodeUnless [.value, .comma, .flowMappingEnd] false false fuel
        let value ← flowValue .flowMappingEnd fuel
        return (key, value) :: (← flowEntries false fuel)
      else
        let key ← node false false fuel
        return (key, .blank) :: (← flowEntries false fuel)

end

/-- Read the declarations in front of a document; at most one of each, and of a version that can be
read. -/
def declarations (seen : Bool) : Nat → Parse Bool
  | 0 => return seen
  | fuel + 1 => do
    match ← peek with
    | some (.version supported) =>
      if seen || !supported then failure
      drop
      declarations true fuel
    | _ => return seen

/-- Read a text with at most one document; none if there is none. -/
def document (fuel : Nat) : Parse (Option Node) := do
  if (← peek).isNone then return none
  let declared ← declarations false fuel
  let root ←
    if ← accept .documentStart then
      if (← peek).isNone then pure .blank
      else nodeUnless [.version true, .version false, .documentStart, .documentEnd] true false fuel
    else if declared then failure
    else node true false fuel
  let ends := fun (feed : Feed) => some ((), { feed with
    tokens := feed.tokens.dropWhile (· = .documentEnd) })
  ends
  if (← peek).isSome then failure
  return some root

end Parse

end Yaml

end Warden
