import Warden.Describe
import Warden.Error
/-! # Rows
A row is a record of field values that remembers which fields were assigned since it was last
stored. A row that has never been stored counts every field it was made of as assigned. -/

namespace Warden

/-- A record with its pending changes. -/
structure Row where
  /-- The current values. -/
  values : FieldValues := []
  /-- The fields assigned since the row was last stored, in name order. -/
  changed : Fields Unit := []
  /-- Whether the row has been stored. -/
  persisted : Bool := false

namespace Row

/-- A row that has not been stored; every value is a pending change. -/
def new (values : FieldValues) : Row :=
  { values, changed := values.mapValues fun _ => () }

/-- A row as it was read from a store; nothing is pending. -/
def stored (values : FieldValues) : Row :=
  { values, persisted := true }

/-- A new row with the fields of a value; a value of another kind gives a row without fields. -/
def ofValue : Value → Row
  | .object values => new values
  | _ => {}

/-- The value of a field. -/
def get? (row : Row) (field : String) : Option Value := row.values.get? field

/-- Assign a field, which makes it a pending change. -/
def set (row : Row) (field : String) (value : Value) : Row :=
  { row with values := row.values.insert field value, changed := row.changed.insert field () }

/-- Assign several fields in turn. -/
def setAll (row : Row) (values : FieldValues) : Row :=
  values.foldl (fun row entry => row.set entry.1 entry.2) row

/-- Note that the row has been stored: nothing is pending any more. -/
def markPersisted (row : Row) : Row := { row with changed := [], persisted := true }

/-- Whether the row has never been stored. -/
def isNew (row : Row) : Bool := !row.persisted

/-- The pending changes: every assigned field with its current value. -/
def changes (row : Row) : FieldValues :=
  row.changed.map fun entry => (entry.1, (row.get? entry.1).getD .null)

/-- Equality of values, pending changes and stored state. -/
def same (a b : Row) : Bool :=
  Value.sameFields a.values b.values && a.changed.keys == b.changed.keys
    && a.persisted == b.persisted

/-- The document of a row holds its values only. -/
def toValue (row : Row) : Value := .object [("values", .object row.values)]

/-- Read the document of a row, a record of its values. Such a row has no pending changes, and
counts as never stored. -/
def ofDocument? (value : Value) : Except Error Row :=
  match (value.record? ["values"]).bind (Fields.get? · "values") with
  | some (.object values) => .ok { values }
  | _ => .error .shape

/-- The description of a row. -/
def describe (row : Row) : String :=
  Describe.record "Row"
    [("values", Describe.set (Value.describeFields row.values)),
     ("changed", Describe.set (row.changed.keys.map Describe.quoted)),
     ("persisted", Describe.bool row.persisted)]

end Row

end Warden
