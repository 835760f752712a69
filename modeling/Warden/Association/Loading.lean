import Warden.Relation.Reading
/-! # Loading associated rows
The rows that belong to one owner form a relation (`Association.forOwner`); the rows that belong to
several owners are read by one query (`Association.preload`). Either way the owner's subject is
handed on, and the rules that count are those of the target. -/

namespace Warden

namespace Association

variable {S Q : Type} [Query Q]

/-- The relation of the rows that belong to an owner, seen by the owner's subject. -/
def forOwner (assoc : Association) (owner : Guarded S Q) : Relation S Q :=
  let all : Relation S Q :=
    (Relation.all assoc.target).withRestriction owner.binding.restriction
  match assoc.ownerKey owner.row owner.model.table with
  | some key => all.filterEq assoc.targetField key
  | none => all.map Query.none

/-- Keep the first of equal keys. -/
def distinct (keys : List Value) : List Value :=
  keys.foldl (fun kept key => if kept.any (·.equal key) then kept else kept ++ [key]) []

/-- The keys by which owners are related, each once. -/
def ownerKeys (assoc : Association) (owners : List (Guarded S Q)) : List Value :=
  distinct (owners.filterMap fun owner => assoc.ownerKey owner.row owner.model.table)

/-- Those of the rows that belong to an owner, as records of the owner's subject. -/
def rowsOf (assoc : Association) (rows : List Row) (owner : Guarded S Q) : List (Guarded S Q) :=
  let key := assoc.ownerKey owner.row owner.model.table
  let related := rows.filter fun row =>
    match key, row.get? assoc.targetField with
    | some key, some value => key.equal value
    | _, _ => false
  related.map fun row => Guarded.inheriting assoc.target row owner.binding.restriction

/-- The rows that belong to each of several owners, in the order of the owners. One query reads
them all, within the scope of the first owner's subject. -/
def preload (assoc : Association) (site : Site S Q) (owners : List (Guarded S Q)) :
    Run (List (List (Guarded S Q))) := do
  match owners with
  | [] => return []
  | first :: _ =>
    let wanted :=
      Query.filterIn (Query.base assoc.target.table) assoc.targetField (assoc.ownerKeys owners)
    let query ← match first.binding.restriction with
      | .bound subject =>
        if ← Run.isTrusted then pure wanted else site.scopeFor assoc.target subject wanted
      | .unbound => pure wanted
    let rows := site.store.fetch query
    return owners.map (assoc.rowsOf rows)

end Association

end Warden
