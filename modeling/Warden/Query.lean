import Warden.Row
import Warden.Table
/-! # Queries and stores
A *query* describes which rows of a table are meant; it is put together here and carried out
elsewhere. Every kind of query has the operations of the class `Query`. A `Store` carries out
queries of one kind. The kind `Unit` describes nothing, for applications that ask about fields and
actions only. -/

namespace Warden

/-- The operations of a kind of query. -/
class Query (Q : Type) where
  /-- All rows of a table. -/
  base : Table → Q
  /-- Narrow a query down to no row at all. -/
  none : Q → Q
  /-- Both conditions together, starting from the first query. -/
  merge : Q → Q → Q
  /-- Only rows in which a field has a value. -/
  filterEq : Q → (field : String) → Value → Q
  /-- Only rows in which a field has one of several values. -/
  filterIn : Q → (field : String) → List Value → Q

instance : Query Unit where
  base _ := ()
  none _ := ()
  merge _ _ := ()
  filterEq _ _ _ := ()
  filterIn _ _ _ := ()

/-- What carries out queries. -/
structure Store (Q : Type) where
  /-- The number of rows meant by a query; a store may give none for a query without rows. -/
  count : Q → Option Nat
  /-- The rows meant by a query. -/
  fetch : Q → List Row

namespace Store

variable {Q : Type}

/-- A store that holds no rows. -/
def empty : Store Q := ⟨fun _ => some 0, fun _ => []⟩

end Store

end Warden
