import Warden.Relation.Reading
import Warden.Sql.Select
/-! # Permitted statements
The SQL statements of a bound record or relation. What a statement reads or writes is decided
first, as a value (`Select`, `Insert`, `Update`, `Delete`), and written down afterwards:

* a `Select` reads the readable columns of the rows that the subject sees, and its caller may name
  readable columns only;
* an `Insert` or `Update` takes pending changes that pass the check before saving;
* an `Update` or `Delete` concerns the row with the record's key, within the scope. -/

namespace Warden

namespace Sql

/-- A statement that stores a new row. -/
structure Insert where
  /-- The table. -/
  table : Table
  /-- The values of the row. -/
  values : Fields Literal

/-- A statement that changes stored rows. -/
structure Update where
  /-- The table. -/
  table : Table
  /-- The new values. -/
  values : Fields Literal
  /-- Which rows are changed. -/
  conditions : List Condition

/-- A statement that deletes stored rows. -/
structure Delete where
  /-- The table. -/
  table : Table
  /-- Which rows are deleted. -/
  conditions : List Condition

/-- Ask for the primary key of the rows concerned. -/
def returningText (table : Table) : String := " RETURNING " ++ quoteName table.primaryKey

/-- The text of the statement. -/
def Insert.render (statement : Insert) : String :=
  "INSERT INTO " ++ quoteName statement.table.name
    ++ " (" ++ ", ".intercalate (statement.values.keys.map quoteName) ++ ")"
    ++ " VALUES (" ++ ", ".intercalate (statement.values.values.map Literal.render) ++ ")"
    ++ returningText statement.table

/-- The text of the statement. -/
def Update.render (statement : Update) : String :=
  "UPDATE " ++ quoteName statement.table.name
    ++ " SET " ++ ", ".intercalate (statement.values.map fun entry =>
      quoteName entry.1 ++ " = " ++ entry.2.render)
    ++ Select.whereText statement.conditions ++ returningText statement.table

/-- The text of the statement. -/
def Delete.render (statement : Delete) : String :=
  "DELETE FROM " ++ quoteName statement.table.name
    ++ Select.whereText statement.conditions ++ returningText statement.table

end Sql

open Sql

namespace Relation

variable {S : Type}

/-- The columns that the subject may read, the primary key among them; all columns if permissions
are not enforced. -/
def readableColumns (site : Site S Select) : RunOn (Relation S Select) (List String) := do
  let table := (← RunOn.object).model.table
  match ← enforced site with
  | none => return table.fieldNames
  | some perms =>
    return table.fieldNames.filter fun field => table.isPrimaryKey field || perms.isReadable field

/-- The restricted query with the readable columns and what parameters ask for. -/
def permittedQuery (site : Site S Select) (params : ListParams) :
    RunOn (Relation S Select) (Except Error Select) := do
  let columns ← readableColumns site
  let query ← restrictedQuery site
  return ((query.withColumns columns).apply params).mapError ClauseError.toError

/-- The first column of an order that is not among given columns. -/
def foreignOrder? (columns : List String) (order : Option (Fields SortOrder)) : Option String :=
  (order.getD []).keys.find? fun column => !columns.contains column

/-- The query of a list. Sorting by a column that is not read is refused. -/
def select (site : Site S Select) (params : ListParams) :
    RunOn (Relation S Select) (Except Error Select) := do
  match ← permittedQuery site params with
  | .error e => return .error e
  | .ok query =>
    match foreignOrder? query.columns params.order with
    | some column => return .error (ClauseError.toError (.unknownColumn column))
    | none => return .ok query

end Relation

namespace Guarded

variable {S : Type}

/-- Pending changes as literals. -/
def pendingLiterals (row : Row) : Fields Literal := row.changes.mapValues Literal.ofValue

/-- The statement that stores a new row. -/
def insert (site : Site S Select) : RunOn (Guarded S Select) (Except Error Insert) := do
  match ← validate site with
  | .error refusal => return .error refusal.toError
  | .ok () =>
    let record ← RunOn.object
    let table := record.model.table
    let values := pendingLiterals record.row
    if values.isEmpty then
      return .error (.storage ("nothing to insert into '" ++ table.name ++ "'"))
    else return .ok { table, values }

/-- Which rows a change of the record concerns: the one with its key, within the scope. -/
def targetConditions (site : Site S Select) :
    RunOn (Guarded S Select) (Except Error (List Condition)) := do
  let record ← RunOn.object
  let table := record.model.table
  match record.keyValue with
  | none =>
    return .error (.storage
      ("missing primary key '" ++ table.primaryKey ++ "' on '" ++ table.name ++ "'"))
  | some key =>
    let own := Condition.compare .eq ⟨table.name, table.primaryKey⟩ (.ofValue key)
    match (← enforced site).bind Permissions.relation with
    | none => return .ok [own]
    | some scope => return .ok (own :: scope.conditions)

/-- The statement that changes the stored row. -/
def update (site : Site S Select) : RunOn (Guarded S Select) (Except Error Update) := do
  match ← validate site with
  | .error refusal => return .error refusal.toError
  | .ok () =>
    let record ← RunOn.object
    let table := record.model.table
    let values := pendingLiterals record.row
    if values.isEmpty then
      return .error (.storage ("nothing to update on '" ++ table.name ++ "'"))
    else
      match ← targetConditions site with
      | .error e => return .error e
      | .ok conditions => return .ok { table, values, conditions }

/-- The statement that deletes the stored row; none if the record may not be deleted. -/
def delete (site : Site S Select) : RunOn (Guarded S Select) (Except Error (Option Delete)) := do
  if ← allowsDestroy site then
    let table := (← RunOn.object).model.table
    match ← targetConditions site with
    | .error e => return .error e
    | .ok conditions => return .ok (some { table, conditions })
  else return .ok none

end Guarded

end Warden
