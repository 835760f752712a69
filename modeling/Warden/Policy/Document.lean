import Warden.Error
import Warden.Policy
import Warden.Yaml.Record
/-! # Policy documents
How policies are read from documents and written as values. Fields, constraints and scopes have
several forms, which are tried in a fixed order; the first that fits counts:

* fields: a truth value, one name, a list of names, names with constraints;
* constraints: a record with a condition, a record or list of limits, any value;
* scopes: a keyword, a record with an owner column, a record with column values.

A text that uses tags is not read at all, as they are left out of the YAML that is understood. -/

namespace Warden

open Yaml

namespace RangeSpec

/-- The parts of limits, by name or position. -/
def parts : List String := ["min", "max", "exclusive"]

/-- Read one limit; null counts as absent. -/
def limitOf? : Option Datum → Option (Option Value)
  | none | some .null => some none
  | some datum => datum.toValue?.map some

/-- Read limits from their three parts. -/
def ofParts? (min max exclusive : Option Datum) : Option RangeSpec := do
  let min ← limitOf? min
  let max ← limitOf? max
  let exclusive ← match exclusive with
    | none => some false
    | some datum => datum.bool?
  return { min, max, exclusive }

/-- Read limits: a record of the three parts and no others, or a list of up to three parts. -/
def ofDatum? : Datum → Option RangeSpec
  | .entries entries => do
    let found ← Datum.parts? parts false entries
    ofParts? (found.lookup 0) (found.lookup 1) (found.lookup 2)
  | .list items => if items.length ≤ 3 then ofParts? items[0]? items[1]? items[2]? else none
  | _ => none

/-- The document of limits. -/
def toValue (range : RangeSpec) : Value :=
  let limit := fun (name : String) (value : Option Value) =>
    (value.map fun value => (name, value)).toList
  .object ([("exclusive", .bool range.exclusive)] ++ limit "max" range.max ++ limit "min" range.min)

end RangeSpec

/-- A text that is the part of a record with a single known part; other entries are passed over. -/
def singlePart? (name : String) : Datum → Option Datum
  | .entries entries => do
    let found ← Datum.parts? [name] true entries
    found.lookup 0
  | _ => none

namespace ConstraintSpec

/-- The part of a record that holds a condition. -/
def conditionPart : String := "cel"

/-- Read a constraint. -/
def ofDatum? (datum : Datum) : Option ConstraintSpec :=
  match (singlePart? conditionPart datum).bind Datum.text? with
  | some source => some (.condition source)
  | none =>
    match RangeSpec.ofDatum? datum with
    | some limits => some (.range limits)
    | none => datum.toValue?.map .literal

/-- The document of a constraint. -/
def toValue : ConstraintSpec → Value
  | .condition source => .object [(conditionPart, .string source)]
  | .range limits => limits.toValue
  | .literal value => value

end ConstraintSpec

namespace FieldList

/-- Read a field with its constraint; null stands for no constraint. -/
def entryOf? (entry : Datum × Datum) : Option (String × Option ConstraintSpec) := do
  let name ← entry.1.text?
  match entry.2 with
  | .null => return (name, none)
  | datum => return (name, some (← ConstraintSpec.ofDatum? datum))

/-- Read fields. -/
def ofDatum? : Datum → Option FieldList
  | .bool value => some (.flag value)
  | .text field => some (.name field)
  | .list items => (Datum.texts? items).map .names
  | .entries entries => (entries.mapM entryOf?).map fun pairs => .constrained (Fields.ofList pairs)
  | _ => none

/-- The document of fields. -/
def toValue : FieldList → Value
  | .flag value => .bool value
  | .name field => .string field
  | .names fields => .array (fields.map Value.string)
  | .constrained fields =>
    .object (fields.mapValues fun spec => (spec.map ConstraintSpec.toValue).getD .null)

end FieldList

namespace ScopeSpec

/-- The keyword for no row. -/
def nothingWord : String := "none"

/-- Whether a datum is the keyword for no row, alone or as the only key of a record with null. -/
def isNothing : Datum → Bool
  | .text word => word == nothingWord
  | .entries [(key, .null)] => Datum.part? [nothingWord] key == some (some 0)
  | _ => false

/-- The values of columns. -/
def valuesOf? (datum : Datum) : Option FieldValues :=
  match datum with
  | .entries _ => datum.toValue?.bind Value.fields?
  | _ => none

/-- Read a scope. -/
def ofDatum? (datum : Datum) : Option ScopeSpec :=
  if isNothing datum then some .nothing
  else match (singlePart? "owner" datum).bind Datum.text? with
    | some column => some (.owner column)
    | none => ((singlePart? "where" datum).bind valuesOf?).map .matching

/-- The document of a scope. -/
def toValue : ScopeSpec → Value
  | .nothing => .string nothingWord
  | .owner column => .object [("owner", .string column)]
  | .matching values => .object [("where", .object values)]

end ScopeSpec

namespace PolicyRule

/-- The parts of a rule. -/
def parts : List String := ["roles", "can", "cannot", "scope"]

/-- Read the requirements of a rule. -/
def rolesOf (node : Node) : Reading (List RoleRequirement) := do
  let names ← (← node.items).mapM Node.text
  return names.map RoleRequirement.ofName

/-- Read the fields of an action, which may be nested at most so deep. -/
def fieldsOf (depth : Nat) (node : Node) : Reading FieldList := do
  Reading.ofOption (FieldList.ofDatum? (← Datum.ofNode depth node))

/-- Read a scope, which may be nested at most so deep. -/
def scopeOf (depth : Nat) (node : Node) : Reading ScopeSpec := do
  Reading.ofOption (ScopeSpec.ofDatum? (← Datum.ofNode depth node))

/-- Read a rule; `depth` bounds how deep its parts may be nested. -/
def ofNode (depth : Nat) (node : Node) : Reading PolicyRule := do
  let record ← node.record parts
  let grants := Node.fields (fieldsOf (depth - 1))
  let roles ← Node.part record "roles" [] rolesOf
  let can ← Node.part record "can" [] grants
  let cannot ← Node.part record "cannot" [] grants
  let scope ← Node.part record "scope" none (Node.optional (scopeOf depth))
  return { roles, can, cannot, scope }

/-- The document of a rule. -/
def toValue (rule : PolicyRule) : Value :=
  let grants := fun (fields : Fields FieldList) => Value.object (fields.mapValues FieldList.toValue)
  .object ([("can", grants rule.can), ("cannot", grants rule.cannot),
    ("roles", .array (rule.roles.map fun role => .string role.name))]
    ++ (rule.scope.map fun scope => ("scope", scope.toValue)).toList)

end PolicyRule

namespace Policy

/-- Read the rules of a table: a list of rules, or a single rule. -/
def rulesOf (depth : Nat) (node : Node) : Reading (List PolicyRule) := do
  match ← node.target with
  | .sequence items => items.mapM (PolicyRule.ofNode (depth - 2))
  | .mapping entries => return [← PolicyRule.ofNode (depth - 1) (.mapping entries)]
  | _ => failure

/-- Read a policy. -/
def ofNode (node : Node) : Reading Policy := do
  let record ← node.record ["tables"]
  let tables ← Node.part record "tables" [] (Node.fields (rulesOf (maxDepth - 2)))
  return { tables }

/-- Read a policy document. -/
def ofText (text : String) : Except Error Policy :=
  match (Document.ofText? text).bind (·.read? ofNode) with
  | some policy => .ok policy
  | none => .error (.policy "the document describes no policy")

/-- The document of a policy. -/
def toValue (policy : Policy) : Value :=
  .object [("tables", .object (policy.tables.mapValues fun rules =>
    .object [("rules", .array (rules.map PolicyRule.toValue))]))]

end Policy

end Warden
