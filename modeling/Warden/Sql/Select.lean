import Warden.Query
import Warden.Sql.ListParams
/-! # SELECT queries
A `Select` describes the rows and columns to be read from one table. Conditions are joined by `AND`
and a condition that is already there is not added again; of several limits the smallest holds.
"No row" is the condition `Condition.never`. -/

namespace Warden

namespace Sql

/-- A query of one table. -/
structure Select where
  /-- The table. -/
  table : String
  /-- The columns to be read; all if none is given. -/
  columns : List String := []
  /-- What a row has to satisfy. -/
  conditions : List Condition := []
  /-- The columns to sort by. -/
  order : List (String × SortOrder) := []
  /-- How many rows are wanted at most. -/
  limit : Option Nat := none
  /-- How many rows are passed over. -/
  offset : Option Nat := none

namespace Select

/-- A column of the queried table. -/
def column (query : Select) (name : String) : ColumnName := ⟨query.table, name⟩

/-- Read other columns. -/
def withColumns (query : Select) (columns : List String) : Select := { query with columns }

/-- Whether a condition is there already. -/
def hasCondition (query : Select) (condition : Condition) : Bool :=
  query.conditions.any fun known => known.same condition

/-- Add a condition unless it is there already. -/
def satisfying (query : Select) (condition : Condition) : Select :=
  if query.hasCondition condition then query
  else { query with conditions := query.conditions ++ [condition] }

/-- Add several conditions in turn. -/
def satisfyingAll (query : Select) (conditions : List Condition) : Select :=
  conditions.foldl satisfying query

/-- Only rows in which a column has a value. -/
def filterEq (query : Select) (column : String) (value : Value) : Select :=
  query.satisfying (.hasValue (query.column column) value)

/-- Only rows in which a column has one of several values. -/
def filterIn (query : Select) (column : String) (values : List Value) : Select :=
  query.satisfying (.hasAnyValue (query.column column) values)

/-- No row at all. -/
def none (query : Select) : Select := query.satisfying .never

/-- Whether no row is meant by a condition of its own. -/
def isNone (query : Select) : Bool := query.hasCondition .never

/-- Only rows that satisfy a clause. If columns are listed, the clause may use those only. -/
def filter (query : Select) (clause : Clause) : Except ClauseError Select := do
  if !query.columns.isEmpty then Clause.check query.columns clause
  return query.satisfyingAll (← Clause.conditions query.table clause)

/-- Sort by one more column. -/
def orderBy (query : Select) (column : String) (order : SortOrder) : Select :=
  { query with order := query.order ++ [(column, order)] }

/-- At most so many rows. -/
def atMost (query : Select) (limit : Nat) : Select :=
  { query with limit := some (match query.limit with
      | .none => limit
      | some current => min current limit) }

/-- The limit of another query or of parameters taken over. -/
def withinLimit (query : Select) : Option Nat → Select
  | .none => query
  | some limit => query.atMost limit

/-- Pass over so many rows. -/
def skipping (query : Select) (offset : Nat) : Select := { query with offset := some offset }

/-- Only what parameters ask for. -/
def apply (query : Select) (params : ListParams) : Except ClauseError Select := do
  let filtered ← match params.clause with
    | some clause => query.filter clause
    | .none => pure query
  let sorted := { filtered with order := filtered.order ++ params.order.getD [] }
  let limited := sorted.withinLimit params.limit
  return { limited with offset := params.offset.or limited.offset }

/-- The conditions of both queries. Limit and offset of the other query count, its columns and its
order do not; an offset of the first query stays. -/
def merge (query other : Select) : Select :=
  let limited := (query.satisfyingAll other.conditions).withinLimit other.limit
  { limited with offset := limited.offset.or other.offset }

/-! ## Text -/

/-- Conditions joined by `AND` behind `WHERE`; nothing if there is none. -/
def whereText : List Condition → String
  | [] => ""
  | conditions => " WHERE " ++ (Condition.allOf conditions).render

/-- A clause with a number; nothing if there is none. -/
def countText (word : String) : Option Nat → String
  | .none => ""
  | some n => " " ++ word ++ " " ++ toString n

/-- The order of the rows; nothing if there is none. -/
def orderText (query : Select) : String :=
  if query.order.isEmpty then ""
  else " ORDER BY " ++ ", ".intercalate (query.order.map fun entry =>
    (query.column entry.1).render ++ " " ++ entry.2.render)

/-- The columns that are read. -/
def columnText (query : Select) : String :=
  if query.columns.isEmpty then "*"
  else ", ".intercalate (query.columns.map fun name => (query.column name).render)

/-- The text of the query. -/
def render (query : Select) : String :=
  "SELECT " ++ query.columnText ++ " FROM " ++ quoteName query.table
    ++ whereText query.conditions ++ query.orderText
    ++ countText "LIMIT" query.limit ++ countText "OFFSET" query.offset

/-- The text of the query that counts the rows. A limit or an offset has to act before rows are
counted, which takes an inner query. -/
def renderCount (query : Select) : String :=
  if query.limit.isSome || query.offset.isSome then
    "SELECT COUNT(*) FROM (" ++ query.render ++ ") AS \"scoped\""
  else "SELECT COUNT(*) FROM " ++ quoteName query.table ++ whereText query.conditions

end Select

end Sql

instance : Query Sql.Select where
  base table := { table := table.name, columns := table.fieldNames }
  none := Sql.Select.none
  merge := Sql.Select.merge
  filterEq := Sql.Select.filterEq
  filterIn := Sql.Select.filterIn

end Warden
