import Warden.Guarded
/-! # Carrying out relations
What a relation is good for: counting and fetching rows, building new records, and planning how the
rows of associations are loaded along. Everything that comes out is bound to the relation's own
subject. -/

namespace Warden

/-- How the associations of a relation are loaded. -/
structure LoadPlan where
  /-- Those read together with the rows themselves. -/
  joined : List String := []
  /-- Those read on their own, within the scope of their target. -/
  preloaded : List String := []
  deriving DecidableEq, Repr

namespace Relation

variable {S Q : Type} [Query Q]

/-- The permissions of the subject for the table. -/
def permissions (site : Site S Q) : RunOn (Relation S Q) (Except Error (Permissions Q)) :=
  permissionsBy site.evaluate

/-- The permissions to be enforced; none if there is no subject or execution is trusted. -/
def enforced (site : Site S Q) : RunOn (Relation S Q) (Option (Permissions Q)) :=
  enforcedBy site.evaluate

/-- The query to be carried out. -/
def restrictedQuery (site : Site S Q) : RunOn (Relation S Q) Q :=
  restrictedQueryBy site.evaluate

/-- The number of rows that the subject sees. -/
def count (site : Site S Q) : RunOn (Relation S Q) Nat :=
  countBy site.evaluate site.store

/-- Whether the subject sees any row. -/
def hasRows (site : Site S Q) : RunOn (Relation S Q) Bool := do
  return decide (0 < (← count site))

/-- The rows that the subject sees, as records of the same subject. -/
def fetch (site : Site S Q) : RunOn (Relation S Q) (List (Guarded S Q)) := do
  let query ← restrictedQuery site
  let rel ← RunOn.object
  return (site.store.fetch query).map fun row =>
    Guarded.inheriting rel.model row rel.binding.restriction

omit [Query Q] in
/-- A new record of the same subject. -/
def build (rel : Relation S Q) (values : FieldValues) : Guarded S Q :=
  Guarded.inheriting rel.model (Row.new values) rel.binding.restriction

/-- A new record of the same subject with those values that the subject may give it. All values
are taken over if permissions are not enforced or the settings do not limit new values. -/
def buildPermitted (site : Site S Q) (values : FieldValues) :
    RunOn (Relation S Q) (Guarded S Q) := do
  match ← enforced site with
  | none => return (← RunOn.object).build values
  | some perms =>
    if site.config.strongParameters then
      return (← RunOn.object).build (perms.permitted .create values)
    else return (← RunOn.object).build values

/-- Sort associations by whether the subject sees only part of the target's rows. -/
def planFor (site : Site S Q) (subject : S) : List Association → Run LoadPlan
  | [] => return {}
  | assoc :: rest => do
    let confined ← site.isScopedFor assoc.target subject
    let plan ← planFor site subject rest
    if confined then return { plan with preloaded := assoc.name :: plan.preloaded }
    else return { plan with joined := assoc.name :: plan.joined }

/-- How the associations are loaded: a target of which the subject sees only part is read on its
own, any other is joined. -/
def loadPlan (site : Site S Q) (rel : Relation S Q) : Run LoadPlan := do
  match rel.binding.restriction with
  | .bound subject =>
    if ← Run.isTrusted then return { joined := rel.includes.map Association.name }
    else planFor site subject rel.includes
  | .unbound => return { joined := rel.includes.map Association.name }

end Relation

end Warden
