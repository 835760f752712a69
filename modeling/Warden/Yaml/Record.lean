import Warden.Fields
import Warden.Yaml.Datum
/-! # Reading nodes by expectation
Where a reader knows what it expects, the kind of a plain scalar follows from the expectation: every
scalar is a text where a text is expected. Nothing written counts as an empty list or an empty
record, while a written null does so only where a part is optional. A reference is followed wherever
something is expected, and left alone in entries that are passed over. -/

namespace Warden

namespace Yaml

namespace Node

/-- Whether nothing is written. -/
def isBlank : Node → Bool
  | .scalar content plain => plain && content.isEmpty
  | _ => false

/-- Whether the node stands for an absent part. -/
def isAbsent : Node → Bool
  | .scalar content plain => plain && isNullText content
  | _ => false

/-- Read the text of a scalar, of whatever kind. -/
def text (node : Node) : Reading String := do
  match ← node.target with
  | .scalar content _ => return content
  | _ => failure

/-- Read the truth value of a plain scalar. -/
def bool (node : Node) : Reading Bool := do
  match ← node.target with
  | .scalar content true => Reading.ofOption (boolOf? content)
  | _ => failure

/-- Read the items of a list. -/
def items (node : Node) : Reading (List Node) := do
  match ← node.target with
  | .sequence items => return items
  | target => if target.isBlank then return [] else failure

/-- Read the entries of a record. -/
def entries (node : Node) : Reading (List (Node × Node)) := do
  match ← node.target with
  | .mapping entries => return entries
  | target => if target.isBlank then return [] else failure

/-- Read a part that may be absent. -/
def optional {α : Type} (reader : Node → Reading α) (node : Node) : Reading (Option α) := do
  let target ← node.target
  if target.isAbsent then return none else return some (← reader target)

/-- Read texts and what they are mapped to; of a repeated text the last entry counts. -/
def fields {α : Type} (reader : Node → Reading α) (node : Node) : Reading (Fields α) := do
  let pairs ← (← node.entries).mapM fun entry => do
    let name ← entry.1.text
    let value ← reader entry.2
    return (name, value)
  return Fields.ofList pairs

/-- The entries that name one of the known parts; a part may be named once. -/
def knownEntries (parts : List String) : List (Node × Node) → Reading (Fields Node)
  | [] => return []
  | (key, value) :: rest => do
    let name ← key.text
    let others ← knownEntries parts rest
    if !parts.contains name then return others
    else if others.has name then failure
    else return others.insert name value

/-- Read the known parts of a record; other entries are passed over. -/
def record (parts : List String) (node : Node) : Reading (Fields Node) := do
  knownEntries parts (← node.entries)

/-- Read a part of a record that has a default. -/
def part {α : Type} (record : Fields Node) (name : String) (default : α)
    (reader : Node → Reading α) : Reading α :=
  match record.get? name with
  | none => return default
  | some node => reader node

end Node

end Yaml

end Warden
