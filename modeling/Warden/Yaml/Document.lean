import Warden.Yaml.Node
/-! # YAML documents
A document is a root and the nodes that references lead to. A reader goes from the root to the parts
that it expects, and follows a reference where it meets one; parts that it does not look at may
refer to anything. To keep a small document from standing for a large one, only so many references
may be followed for each event of the document. -/

namespace Warden

namespace Yaml

/-- The only document of a text. -/
structure Document where
  /-- The root. -/
  root : Node
  /-- The anchored nodes. -/
  anchors : Anchors
  /-- How many references may be followed. -/
  reach : Nat
  deriving Repr

/-- How many references may be followed for each event. -/
def Document.repetitions : Nat := 100

/-- The only document of a text; nothing written counts as a blank root. -/
def Document.ofText? (text : String) : Option Document := do
  let tokens ← Token.ofText? text
  let (found, feed) ← (Parse.document (4 * tokens.length + 8)).run { tokens }
  let root := found.getD .blank
  return { root, anchors := feed.anchors, reach := Document.repetitions * root.events }

/-- A reader of a document, which fails where it finds something else than it expects; the state is
the number of references followed so far. -/
abbrev Reading (α : Type) : Type := ReaderT Document (StateT Nat Option) α

namespace Reading

/-- A reader of what may be found. -/
def ofOption {α : Type} (found : Option α) : Reading α := fun _ followed =>
  found.map fun a => (a, followed)

end Reading

/-- The node itself or, for a reference, the node that it leads to. -/
def Node.target : Node → Reading Node
  | .alias number => fun document followed =>
    if document.reach ≤ followed then none
    else (document.anchors.node? number).map fun node => (node, followed + 1)
  | node => return node

@[simp] theorem Node.target_scalar (text : String) (plain : Bool) :
    (Node.scalar text plain).target = pure (.scalar text plain) := rfl

@[simp] theorem Node.target_sequence (items : List Node) :
    (Node.sequence items).target = pure (.sequence items) := rfl

@[simp] theorem Node.target_mapping (entries : List (Node × Node)) :
    (Node.mapping entries).target = pure (.mapping entries) := rfl

/-- What a reader makes of a document. -/
def Document.read? {α : Type} (document : Document) (reader : Node → Reading α) : Option α :=
  ((reader document.root).run document).run 0 |>.map Prod.fst

end Yaml

end Warden
