/-! # Tables
Of a table, permissions need its name, its primary key and its columns. The *fields* of a table are
the primary key followed by the columns; a rule that names no fields means all of them. -/

namespace Warden

/-- A column of a table. -/
structure Column where
  /-- The name of the column. -/
  name : String
  /-- Whether the column may hold null. -/
  nullable : Bool := true
  deriving DecidableEq, Repr

namespace Column

/-- The column with null ruled out. -/
def required (column : Column) : Column := { column with nullable := false }

end Column

/-- The shape of a table. -/
structure Table where
  /-- The name of the table. -/
  name : String
  /-- The name of the primary key. -/
  primaryKey : String := "id"
  /-- The columns, without the primary key. -/
  columns : List Column := []
  deriving DecidableEq, Repr

namespace Table

/-- The usual name of a primary key. -/
def defaultKey : String := "id"

/-- A table with nullable columns of the given names; the usual name of the primary key adds no
column. -/
def withFields (name : String) (fields : List String) : Table :=
  { name, columns := (fields.filter (· ≠ defaultKey)).map fun field => { name := field } }

/-- Rename the primary key, leaving the columns alone. -/
def withPrimaryKey (table : Table) (name : String) : Table := { table with primaryKey := name }

/-- Whether a field is the primary key. -/
def isPrimaryKey (table : Table) (field : String) : Bool := table.primaryKey == field

/-- All fields, the primary key first. -/
def fieldNames (table : Table) : List String :=
  table.primaryKey :: table.columns.map Column.name

/-- Whether the table has a field. -/
def hasField (table : Table) (field : String) : Bool :=
  table.isPrimaryKey field || table.columns.any fun column => column.name == field

@[simp] theorem mem_fieldNames {table : Table} {field : String} :
    field ∈ table.fieldNames ↔ table.hasField field = true := by
  simp [fieldNames, hasField, isPrimaryKey, @eq_comm _ field]

end Table

end Warden
