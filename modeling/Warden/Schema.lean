import Warden.Error
import Warden.Table
import Warden.Yaml.Record
/-! # Table schemas
A schema document declares tables by name: the name of the primary key and the columns, each of
which may say whether it is nullable. `Schema.tables` turns declarations into tables, in the order
of their names. -/

namespace Warden

/-- What a document says about a table. -/
structure TableDeclaration where
  /-- The name of the primary key, if it is given. -/
  key : Option String := none
  /-- The columns, each with whether it is nullable, if that is given. -/
  columns : Fields (Option Bool) := []
  deriving Repr

/-- The declared tables by name. -/
abbrev Schema : Type := Fields TableDeclaration

namespace TableDeclaration

open Yaml

/-- Read the declaration of a primary key. -/
def keyOf (node : Node) : Reading (Option String) := do
  let record ← node.record ["name"]
  Node.part record "name" none (Node.optional Node.text)

/-- Read the declaration of a column. -/
def columnOf (node : Node) : Reading (Option Bool) := do
  let record ← node.record ["nullable"]
  Node.part record "nullable" none (Node.optional Node.bool)

/-- Read the declaration of a table. -/
def ofNode (node : Node) : Reading TableDeclaration := do
  let record ← node.record ["id", "columns"]
  let key ← Node.part record "id" none (Node.optional keyOf)
  let columns ← Node.part record "columns" none
    (Node.optional (Node.fields (Node.optional columnOf)))
  return { key := key.join, columns := (columns.getD []).mapValues Option.join }

/-- The declared table; its primary key must not be declared as a column too. -/
def table (name : String) (declaration : TableDeclaration) : Except Error Table :=
  let primaryKey := declaration.key.getD Table.defaultKey
  if declaration.columns.has primaryKey then
    .error (.schema
      ("table '" ++ name ++ "' declares primary key '" ++ primaryKey ++ "' as a column"))
  else .ok
    { name, primaryKey
      columns := declaration.columns.map fun entry =>
        { name := entry.1, nullable := entry.2.getD true } }

end TableDeclaration

namespace Schema

open Yaml

/-- Read a schema; the entry of the tables has to be there. -/
def ofNode (node : Node) : Reading Schema := do
  let record ← node.record ["tables"]
  let tables ← Reading.ofOption (record.get? "tables")
  tables.fields TableDeclaration.ofNode

/-- Read a schema document. -/
def ofText (text : String) : Except Error Schema :=
  match (Document.ofText? text).bind (·.read? ofNode) with
  | some schema => .ok schema
  | none => .error .document

/-- The declared tables, in the order of their names. -/
def tables (schema : Schema) : Except Error (List Table) :=
  schema.mapM fun entry => entry.2.table entry.1

/-- Add tables one by one to those that are there; their names have to be new. -/
def addTables (known : List Table) : List Table → Except Error (List Table)
  | [] => .ok known
  | table :: rest =>
    if known.any fun other => other.name == table.name then
      .error (.schema ("duplicate table name: " ++ table.name))
    else addTables (known ++ [table]) rest

/-- The tables of several schemas, one schema after the other. -/
def allTables (known : List Table) : List Schema → Except Error (List Table)
  | [] => .ok known
  | schema :: rest => do
    let known ← addTables known (← schema.tables)
    allTables known rest

/-- The tables of a schema document. -/
def parse (text : String) : Except Error (List Table) := do
  (← ofText text).tables

/-- The tables of several schema documents. The first document that is at fault decides the
error. -/
def parseAll (known : List Table) : List String → Except Error (List Table)
  | [] => .ok known
  | text :: rest => do
    let schema ← ofText text
    parseAll (← allTables known [schema]) rest

end Schema

end Warden
