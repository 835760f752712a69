import Warden.Model
/-! # Associations
An association leads from the rows of one table to rows of another, its target. In a *has-many*
association a foreign key of the target points at the primary key of the owner; in a *belongs-to*
association a foreign key of the owner points at the primary key of the target. -/

namespace Warden

/-- The direction of an association. -/
inductive AssociationKind where
  /-- The target points at the owner. -/
  | hasMany
  /-- The owner points at the target. -/
  | belongsTo
  deriving DecidableEq, Repr

/-- A named way from owners to the rows of a target. -/
structure Association where
  /-- The name of the association. -/
  name : String
  /-- The direction. -/
  kind : AssociationKind
  /-- The model that the association leads to. -/
  target : Model
  /-- The field that points from one table to the other. -/
  foreignKey : String
  deriving DecidableEq, Repr

namespace Association

/-- The field of the target that is compared. -/
def targetField (assoc : Association) : String :=
  match assoc.kind with
  | .hasMany => assoc.foreignKey
  | .belongsTo => assoc.target.table.primaryKey

/-- The field of the owner that is compared. -/
def ownerField (assoc : Association) (ownerTable : Table) : String :=
  match assoc.kind with
  | .hasMany => ownerTable.primaryKey
  | .belongsTo => assoc.foreignKey

/-- The key by which an owner is related; an owner whose key is absent or null is related to no
row. -/
def ownerKey (assoc : Association) (owner : Row) (ownerTable : Table) : Option Value :=
  (owner.get? (assoc.ownerField ownerTable)).filter fun value => !value.isNull

/-- The description of an association. -/
def describe (assoc : Association) : String :=
  Describe.record "Association"
    [("name", Describe.quoted assoc.name),
     ("kind", match assoc.kind with
      | .hasMany => "HasMany"
      | .belongsTo => "BelongsTo"),
     ("target", Describe.quoted assoc.target.name),
     ("foreign_key", Describe.quoted assoc.foreignKey)]

end Association

end Warden
