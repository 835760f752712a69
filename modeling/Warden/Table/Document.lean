import Warden.Table
import Warden.Value
/-! # Tables as values
The value that describes a table holds its name, its primary key under `id`, and its columns.
`Table.ofValue?` reads such a value: what is left out has its usual value, except for names, which
a table and each of its columns must have. Instead of a field map a list is read, too; a table then
begins with its name and primary key, a column with its name. -/

namespace Warden

/-- The value that describes a column. -/
def Column.toValue (column : Column) : Value :=
  .object [("name", .string column.name), ("nullable", .bool column.nullable)]

/-- Read the description of a column. -/
def Column.ofValue? (value : Value) : Option Column := do
  let fields ← value.record? ["name", "nullable"]
  let name ← (← fields.get? "name").text?
  let nullable ← match fields.get? "nullable" with
    | none => some true
    | some flag => flag.bool?
  return { name, nullable }

@[simp] theorem Column.ofValue?_toValue (column : Column) :
    Column.ofValue? column.toValue = some column := by
  simp [toValue, ofValue?, Value.record?, Fields.get?, Value.text?, Value.bool?]

namespace Table

/-- The value that describes a table. -/
def toValue (table : Table) : Value :=
  .object
    [("columns", .array (table.columns.map Column.toValue)),
     ("id", .object [("name", .string table.primaryKey)]),
     ("name", .string table.name)]

/-- Read the name of the primary key. -/
def keyOfValue? (value : Value) : Option String := do
  match (← value.record? ["name"]).get? "name" with
  | none => some defaultKey
  | some key => key.text?

/-- Read the description of a table. -/
def ofValue? (value : Value) : Option Table := do
  let fields ← value.record? ["name", "id", "columns"]
  let name ← (← fields.get? "name").text?
  let primaryKey ← match fields.get? "id" with
    | none => some defaultKey
    | some key => keyOfValue? key
  let columns ← match fields.get? "columns" with
    | none => some []
    | some columns => do (← columns.items?).mapM Column.ofValue?
  return { name, primaryKey, columns }

/-- Reading the description of a table gives the table back. -/
@[simp] theorem ofValue?_toValue (table : Table) : ofValue? table.toValue = some table := by
  have columns : (table.columns.map Column.toValue).mapM Column.ofValue? = some table.columns := by
    induction table.columns with
    | nil => rfl
    | cons column rest ih => simp [ih]
  simp [toValue, ofValue?, keyOfValue?, Value.record?, Value.items?, Fields.get?, Value.text?,
    columns]

end Table

end Warden
