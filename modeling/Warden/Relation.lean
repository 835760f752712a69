import Warden.Association
/-! # Relations
A relation is a query over a model that remembers its subject. When it is carried out, the scope of
the subject is merged in, unless there is no subject or execution is trusted. This module holds
relations and the ways to derive one from another; `Warden.Relation.Reading` carries them out. -/

namespace Warden

/-- A query over a model, seen by a subject. -/
structure Relation (S Q : Type) where
  /-- The model. -/
  model : Model
  /-- The query before any scope is merged in. -/
  query : Q
  /-- The subject. -/
  binding : Binding S Q := {}
  /-- The associations to be loaded along, in the order in which they were asked for. -/
  includes : List Association := []

namespace Relation

variable {S Q : Type}

/-- The relation of all rows of a model, seen by nobody in particular. -/
def all [Query Q] (model : Model) : Relation S Q :=
  { model, query := Query.base model.table }

/-- The relation of all rows of a model, seen by a subject. -/
def ofSubject [Query Q] (model : Model) (subject : S) : Relation S Q :=
  { model, query := Query.base model.table, binding := .fresh (.bound subject) }

/-- A copy, whose permissions are still to be worked out. -/
def clone (rel : Relation S Q) : Relation S Q := { rel with binding := rel.binding.forget }

/-- Bind to a subject. -/
def restrict (rel : Relation S Q) (subject : S) : Relation S Q :=
  { rel with binding := rel.binding.restrict subject }

/-- Bind to no subject. -/
def unrestrict (rel : Relation S Q) : Relation S Q :=
  { rel with binding := rel.binding.unrestrict }

/-- Take over the restriction of another object. -/
def withRestriction (rel : Relation S Q) (restriction : Restriction S) : Relation S Q :=
  { rel with binding := .fresh restriction }

/-- Change the query. -/
def map (rel : Relation S Q) (change : Q → Q) : Relation S Q :=
  { rel with query := change rel.query }

/-- Only rows in which a field has a value. -/
def filterEq [Query Q] (rel : Relation S Q) (field : String) (value : Value) : Relation S Q :=
  rel.map fun query => Query.filterEq query field value

/-- Only rows in which a field has one of several values. -/
def filterIn [Query Q] (rel : Relation S Q) (field : String) (values : List Value) :
    Relation S Q :=
  rel.map fun query => Query.filterIn query field values

/-- Start again from all rows, without associations; the subject stays. -/
def unscoped [Query Q] (rel : Relation S Q) : Relation S Q :=
  { rel with query := Query.base rel.model.table, includes := [] }

/-- Load an association along. -/
def including (rel : Relation S Q) (assoc : Association) : Relation S Q :=
  { rel with includes := rel.includes ++ [assoc] }

/-- The permissions of the subject for the table, by a given evaluator. -/
def permissionsBy (evaluate : Evaluator S Q) :
    RunOn (Relation S Q) (Except Error (Permissions Q)) := do
  let rel ← RunOn.object
  RunOn.focus Relation.binding (fun binding rel => { rel with binding })
    (Binding.permissions fun subject => evaluate rel.model subject none)

/-- The permissions to be enforced, by a given evaluator. -/
def enforcedBy (evaluate : Evaluator S Q) : RunOn (Relation S Q) (Option (Permissions Q)) := do
  let rel ← RunOn.object
  RunOn.focus Relation.binding (fun binding rel => { rel with binding })
    (Binding.enforced fun subject => evaluate rel.model subject none)

/-- The query with the scope merged in, where the scope is to be enforced. -/
def restrictedQueryBy [Query Q] (evaluate : Evaluator S Q) : RunOn (Relation S Q) Q := do
  let rel ← RunOn.object
  match ← enforcedBy evaluate with
  | none => return rel.query
  | some perms =>
    match perms.relation with
    | none => return rel.query
    | some scope => return Query.merge rel.query scope

/-- The number of rows; a store's answer of none counts as zero. -/
def countBy [Query Q] (evaluate : Evaluator S Q) (store : Store Q) : RunOn (Relation S Q) Nat := do
  let query ← restrictedQueryBy evaluate
  return (store.count query).getD 0

/-- The description of a relation. -/
def describe (subjectText : S → String) (rel : Relation S Q) : String :=
  Describe.record "Relation"
    [("model", Describe.quoted rel.model.name),
     ("restriction", rel.binding.restriction.describe subjectText),
     ("includes", toString rel.includes.length)]

end Relation

end Warden
