import Warden.Query
/-! # Rows in memory
A store that keeps its rows in memory, table by table in the order in which they were stored. Its
queries are lists of row filters with an optional limit; the limit counts rows that passed the
filters. A query may also be known to mean no row at all, and such a query has no count. -/

namespace Warden

/-- A query over rows in memory. -/
structure MemoryQuery where
  /-- The name of the table. -/
  table : String
  /-- What a row has to pass. -/
  filters : List (Row → Bool) := []
  /-- How many rows are wanted at most. -/
  limit : Option Nat := none
  /-- Whether no row is meant. -/
  empty : Bool := false

namespace MemoryQuery

/-- Ask for one more filter to be passed. -/
def filter (query : MemoryQuery) (keep : Row → Bool) : MemoryQuery :=
  { query with filters := query.filters ++ [keep] }

/-- Whether a row has a field whose value equals a given one. -/
def hasValue (field : String) (value : Value) (row : Row) : Bool :=
  match row.get? field with
  | none => false
  | some stored => stored.equal value

/-- Whether a row has a field whose value equals one of the given ones. -/
def hasAnyValue (field : String) (values : List Value) (row : Row) : Bool :=
  match row.get? field with
  | none => false
  | some stored => values.any fun value => stored.equal value

/-- Only rows in which a field has a value. -/
def filterEq (query : MemoryQuery) (field : String) (value : Value) : MemoryQuery :=
  query.filter (hasValue field value)

/-- Only rows in which a field has one of several values. -/
def filterIn (query : MemoryQuery) (field : String) (values : List Value) : MemoryQuery :=
  query.filter (hasAnyValue field values)

/-- At most so many rows; of several limits the smallest holds. -/
def atMost (query : MemoryQuery) (limit : Nat) : MemoryQuery :=
  { query with limit := some (match query.limit with
      | none => limit
      | some current => min current limit) }

/-- The limit of another query taken over. -/
def withinLimit (query : MemoryQuery) : Option Nat → MemoryQuery
  | none => query
  | some limit => query.atMost limit

/-- Both queries together, on the table of the first one. -/
def merge (query other : MemoryQuery) : MemoryQuery :=
  let filtered := { query with
    filters := query.filters ++ other.filters, empty := query.empty || other.empty }
  filtered.withinLimit other.limit

/-- Whether a row passes. -/
def admits (query : MemoryQuery) (row : Row) : Bool :=
  !query.empty && query.filters.all fun keep => keep row

/-- The description of a query. -/
def describe (query : MemoryQuery) : String :=
  Describe.record "MemoryQuery"
    [("table", Describe.quoted query.table),
     ("filters", toString query.filters.length),
     ("limit", Describe.option (query.limit.map toString)),
     ("empty", Describe.bool query.empty)]

end MemoryQuery

instance : Query MemoryQuery where
  base table := { table := table.name }
  none query := { query with empty := true }
  merge := MemoryQuery.merge
  filterEq := MemoryQuery.filterEq
  filterIn := MemoryQuery.filterIn

/-- Rows in memory, by the name of their table. -/
structure Memory where
  /-- The rows of each table, in the order in which they were stored. -/
  tables : Fields (List Row) := []

namespace Memory

/-- The rows of a table; a table that was never written to has none. -/
def rows (memory : Memory) (table : String) : List Row :=
  (memory.tables.get? table).getD []

/-- Store a row, which has no pending changes from then on. -/
def insert (memory : Memory) (table : String) (row : Row) : Memory :=
  { tables := memory.tables.insert table (memory.rows table ++ [row.markPersisted]) }

/-- Store a field map as a row; a value of another kind is ignored. -/
def insertValue (memory : Memory) (table : String) : Value → Memory
  | .object values => memory.insert table (Row.new values)
  | _ => memory

/-- A memory that holds the given rows of each table. -/
def ofTables (tables : Fields (List Value)) : Memory :=
  tables.foldl (fun memory table =>
    table.2.foldl (fun memory row => memory.insertValue table.1 row) memory) {}

/-- The number of rows of a table. -/
def size (memory : Memory) (table : String) : Nat := (memory.rows table).length

/-- The rows that a query means: those that pass, up to the limit. -/
def select (memory : Memory) (query : MemoryQuery) : List Row :=
  if query.empty then []
  else
    let passed := (memory.rows query.table).filter query.admits
    match query.limit with
    | none => passed
    | some limit => passed.take limit

/-- The number of rows that a query means; a query known to mean no row has none. -/
def count (memory : Memory) (query : MemoryQuery) : Option Nat :=
  if query.empty then none else some (memory.select query).length

/-- The store that answers from memory. -/
def store (memory : Memory) : Store MemoryQuery := ⟨memory.count, memory.select⟩

@[simp] theorem rows_insert (memory : Memory) (table other : String) (row : Row) :
    (memory.insert table row).rows other =
      if table = other then memory.rows table ++ [row.markPersisted] else memory.rows other := by
  by_cases same : table = other <;> simp [insert, rows, Fields.get?_insert, same]

end Memory

end Warden
