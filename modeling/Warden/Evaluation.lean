import Warden.Relation
/-! # Evaluation
The permissions of a subject are what the rules of a model make of them. While rules run they may
count the rows that some subject sees of some model, which in turn might call for permissions.
`Site.evaluateNested` makes the nesting explicit: it allows so many evaluations inside one another
and panics beyond. Rules run in trusted execution, where counting rows calls for no permissions, so
a single inner level, which is never entered, is enough for `Site.evaluate`. -/

namespace Warden

namespace Site

variable {S Q : Type} [Query Q]

/-- Count the rows that a subject sees of the model of a name; a name without model has none. -/
def censusBy (site : Site S Q) (evaluate : Evaluator S Q) : Census S :=
  fun name subject =>
    match site.models.get? name with
    | none => return 0
    | some model => do
      let (rows, _) ← (Relation.countBy evaluate site.store).on (Relation.ofSubject model subject)
      return rows

/-- Evaluate with at most the given number of evaluations inside one another. -/
def evaluateNested (site : Site S Q) : Nat → Evaluator S Q
  | 0 => fun _ _ _ => Run.abandon "permission evaluation is nested too deeply"
  | levels + 1 => site.evaluateWith (site.censusBy (site.evaluateNested levels))

/-- The permissions of a subject for a model, and for a record of it if one is given. -/
def evaluate (site : Site S Q) : Evaluator S Q := site.evaluateNested 1

/-- Whether a subject sees only part of the rows of a model. -/
def isScopedFor (site : Site S Q) (model : Model) (subject : S) : Run Bool := do
  return (← site.evaluate model subject none).isScoped

/-- Narrow a query over a model to the rows that a subject sees. -/
def scopeFor (site : Site S Q) (model : Model) (subject : S) (query : Q) : Run Q := do
  return (← site.evaluate model subject none).applyTo query

end Site

end Warden
