import Warden.Cel.Condition
import Warden.Model
import Warden.Policy
/-! # Installing policies
A policy is installed on a model by turning each rule of its table into a rule of the model. What
cannot be right is refused beforehand: fields that the table does not have, conditions that are no
expressions, limits without any limit, and fields for an action that has none. The reading of a
condition may also panic; either way nothing is installed. A rule counts only
for subjects that meet its requirements; its grants are applied before its withdrawals. -/

namespace Warden

/-- A checked constraint; a condition still waits for its subject. -/
inductive FieldRule where
  /-- Every value. -/
  | unconstrained
  /-- One value. -/
  | literal (value : Value)
  /-- The values of a range. -/
  | range (range : ValueRange)
  /-- The values that satisfy a condition. -/
  | condition (condition : Cel.Condition)

/-- Checked fields of an action. -/
inductive Grant where
  /-- Every field. -/
  | all
  /-- The action as a whole. -/
  | flag
  /-- Some fields. -/
  | fields (entries : List (String × FieldRule))

/-- A checked rule of a policy. -/
structure CheckedRule where
  /-- For whom the rule counts. -/
  roles : List RoleRequirement
  /-- What is granted. -/
  can : List (Action × Grant)
  /-- What is withdrawn afterwards. -/
  cannot : List (Action × Grant)
  /-- The rows to which the subject is confined. -/
  scope : Option ScopeSpec

/-! ## Checking -/

/-- Whether a table has a field. -/
def Table.require (table : Table) (field : String) : Except Error Unit :=
  if table.hasField field then .ok () else .error (.unknownField table.name field)

/-- Whether a table has several fields; the first that it lacks is at fault. -/
def Table.requireAll (table : Table) : List String → Except Error Unit
  | [] => .ok ()
  | field :: rest => do
    table.require field
    table.requireAll rest

namespace FieldRule

/-- Check the limits of a field. -/
def ofRange (field : String) (spec : RangeSpec) : Except Error ValueRange :=
  if spec.min.isNone && spec.max.isNone then
    .error (.policy ("range for field '" ++ field ++ "' needs min or max"))
  else
    let lower := match spec.min with
      | none => Bound.unbounded
      | some limit => .included limit
    let upper := match spec.max with
      | none => Bound.unbounded
      | some limit => if spec.exclusive then .excluded limit else .included limit
    .ok ⟨lower, upper⟩

/-- Check the constraint of a field. -/
def ofSpec (field : String) : Option ConstraintSpec → Except Failure FieldRule
  | none => .ok .unconstrained
  | some (.literal value) => .ok (.literal value)
  | some (.condition source) => (Cel.Condition.ofText source).map .condition
  | some (.range limits) => return .range (← ofRange field limits)

/-- Check several fields in turn. -/
def ofEntries : List (String × Option ConstraintSpec) → Except Failure (List (String × FieldRule))
  | [] => .ok []
  | (field, spec) :: rest => do
    let rule ← ofSpec field spec
    return (field, rule) :: (← ofEntries rest)

/-- The constraint for a subject of which expressions see a value. -/
def constraint [Cel.Evaluation] (rule : FieldRule) (auth : Value) : Constraint :=
  match rule with
  | .unconstrained => .unconstrained
  | .literal value => .literal value
  | .range limits => .range limits
  | .condition test => .ofCondition test auth

end FieldRule

namespace Grant

/-- The fields of a list with their constraints. -/
def entriesOf : FieldList → Except Failure (List (String × FieldRule))
  | .flag _ => .ok []
  | .constrained named => FieldRule.ofEntries named
  | list => .ok (list.fieldNames.map fun field => (field, .unconstrained))

/-- Check the fields of an action. Destroying has no fields. -/
def ofFields (table : Table) (action : Action) (list : FieldList) : Except Failure Grant :=
  if action = .destroy then
    if list.isAll then .ok .flag
    else match list with
      | .flag _ => .ok (.fields [])
      | _ => .error (.refused (.policy "destroy takes true, false or \"*\""))
  else if list.isAll then .ok .all
  else do
    let entries ← entriesOf list
    table.requireAll (entries.map Prod.fst)
    return .fields entries

/-- Check the fields of several actions in turn. -/
def ofActions (table : Table) :
    List (String × FieldList) → Except Failure (List (Action × Grant))
  | [] => .ok []
  | (name, list) :: rest => do
    let action := Action.ofName name
    let grant ← ofFields table action list
    return (action, grant) :: (← ofActions table rest)

end Grant

/-- The columns that a scope mentions. -/
def ScopeSpec.columns : ScopeSpec → List String
  | .nothing => []
  | .owner column => [column]
  | .matching values => values.keys

/-- Check a rule for a table: the columns of its scope first, then grants, then withdrawals. -/
def CheckedRule.ofRule (table : Table) (rule : PolicyRule) : Except Failure CheckedRule := do
  table.requireAll ((rule.scope.map ScopeSpec.columns).getD [])
  let can ← Grant.ofActions table rule.can
  let cannot ← Grant.ofActions table rule.cannot
  return { roles := rule.roles, can, cannot, scope := rule.scope }

/-! ## Applying -/

variable [Cel.Evaluation] {S Q : Type}

namespace Grant

/-- Fields with their constraints for a subject. -/
def spec (auth : Value) (entries : List (String × FieldRule)) : FieldSpec :=
  .constrained (entries.map fun entry => (entry.1, entry.2.constraint auth))

/-- The specifications that a grant stands for; none if it changes nothing. -/
def specs? (auth : Value) : Grant → Option (List FieldSpec)
  | .all | .flag => some []
  | .fields [] => none
  | .fields entries => some [spec auth entries]

/-- Grant an action. -/
def grantScript (auth : Value) (entry : Action × Grant) : Script S Q :=
  match entry.2.specs? auth with
  | none => .done
  | some specs => .grant entry.1 specs

/-- Withdraw an action. -/
def withdrawScript (auth : Value) (entry : Action × Grant) : Script S Q :=
  match entry.2.specs? auth with
  | none => .done
  | some specs => .withdraw entry.1 specs

end Grant

/-- The narrowing of queries that a scope stands for. A subject without identity owns no row. -/
def ScopeSpec.narrow [Query Q] [Principal S] (spec : ScopeSpec) (subject : S) : Q → Q :=
  match spec with
  | .nothing => Query.none
  | .owner column =>
    match Principal.sub subject with
    | none => Query.none
    | some sub => fun query => Query.filterEq query column (.string sub)
  | .matching values => fun query =>
    values.foldl (fun query entry => Query.filterEq query entry.1 entry.2) query

namespace CheckedRule

/-- What a rule does for a subject. -/
def script [Query Q] [Principal S] (rule : CheckedRule) (subject : S) : Script S Q :=
  if RoleRequirement.anyMetBy rule.roles subject then
    let auth := Principal.authValue subject
    Script.sequence
      (rule.can.map (Grant.grantScript auth) ++ rule.cannot.map (Grant.withdrawScript auth)
        ++ (rule.scope.map fun spec => .narrow (spec.narrow subject)).toList)
  else .done

/-- The rule for subjects that a checked rule stands for. -/
def toRule [Query Q] [Principal S] (rule : CheckedRule) : Rule S Q := .subject rule.script

end CheckedRule

namespace Policy

/-- The checked rules of a table; none if the policy has no entry for it. -/
def checked (policy : Policy) (table : Table) : Except Failure (List CheckedRule) :=
  ((policy.rules? table.name).getD []).mapM (CheckedRule.ofRule table)

/-- Install the rules of a model's table; returns their number. -/
def install [Query Q] [Principal S] (policy : Policy) (site : Site S Q) (model : Model) :
    Except Failure (Site S Q × Nat) := do
  let rules ← policy.checked model.table
  let installed := rules.foldl (fun site rule => site.protect model rule.toRule) site
  return (installed, rules.length)

end Policy

end Warden
