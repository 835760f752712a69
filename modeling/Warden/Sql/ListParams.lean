import Warden.Sql.Clause
/-! # List parameters
What a caller of a list may ask for: a clause, an order, a limit and an offset. They are read from a
field map whose other entries are ignored, or from a list in this order; an absent or null
parameter asks for nothing. -/

namespace Warden

namespace Sql

/-- The direction of an order. -/
inductive SortOrder where
  /-- Smallest first. -/
  | ascending
  /-- Largest first. -/
  | descending
  deriving DecidableEq, Repr

namespace SortOrder

/-- The name of a direction in parameters. -/
def name : SortOrder → String
  | .ascending => "asc"
  | .descending => "desc"

/-- The direction of a name. -/
def ofName? : String → Option SortOrder
  | "asc" => some .ascending
  | "desc" => some .descending
  | _ => none

/-- How a direction is written in a statement. -/
def render : SortOrder → String
  | .ascending => "ASC"
  | .descending => "DESC"

/-- Read a direction: its name, alone or as the only key of a field map with null. -/
def ofValue? : Value → Option SortOrder
  | .string name => ofName? name
  | .object [(name, .null)] => ofName? name
  | _ => none

end SortOrder

/-- The parameters of a list. -/
structure ListParams where
  /-- What is asked of the rows. -/
  clause : Option Clause := none
  /-- The columns to sort by, in the order of their names. -/
  order : Option (Fields SortOrder) := none
  /-- How many rows are wanted at most. -/
  limit : Option Nat := none
  /-- How many rows are passed over. -/
  offset : Option Nat := none

namespace ListParams

/-- Read the directions of columns. -/
def orderOf? : List (String × Value) → Option (Fields SortOrder)
  | [] => some []
  | (column, value) :: rest => do
    let order ← SortOrder.ofValue? value
    let others ← orderOf? rest
    some ((column, order) :: others)

/-- Read an optional parameter; null counts as absent. -/
def optional {α : Type} (read : Value → Option α) : Option Value → Except Error (Option α)
  | none | some .null => .ok none
  | some value =>
    match read value with
    | some parameter => .ok (some parameter)
    | none => .error .shape

/-- Read parameters from the four values, where there are any. -/
def ofParts (clause order limit offset : Option Value) : Except Error ListParams := do
  let count := fun (value : Value) => value.number?.bind Number.unsigned?
  return {
    clause := ← optional Value.fields? clause
    order := ← optional (fun value => value.fields?.bind orderOf?) order
    limit := ← optional count limit
    offset := ← optional count offset }

/-- Read parameters. -/
def ofValue? (value : Value) : Except Error ListParams :=
  match value.record? ["where", "order_by", "limit", "offset"] with
  | some fields =>
    ofParts (Fields.get? fields "where") (Fields.get? fields "order_by")
      (Fields.get? fields "limit") (Fields.get? fields "offset")
  | none => .error .shape

/-- The document of parameters. -/
def toValue (params : ListParams) : Value :=
  let count := fun (n : Option Nat) => (n.map fun n => Value.int n).getD .null
  .object
    [("limit", count params.limit),
     ("offset", count params.offset),
     ("order_by", (params.order.map fun order =>
        Value.object (order.mapValues fun order => .string order.name)).getD .null),
     ("where", (params.clause.map Value.object).getD .null)]

end ListParams

end Sql

end Warden
