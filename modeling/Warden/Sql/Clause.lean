import Warden.Error
import Warden.Sql.Condition
/-! # Where clauses
A caller of a list describes the rows it wants by a *clause*: a field map from columns to values or
to field maps of operators, and from `$and` and `$or` to lists of clauses. `Clause.check` looks at
the columns at every depth, and `Clause.conditions` turns a clause into conditions. -/

namespace Warden

namespace Sql

/-- What a caller asks of the rows of a list. -/
abbrev Clause : Type := FieldValues

/-- What is wrong with a clause. -/
inductive ClauseError where
  /-- A column that may not be used. -/
  | unknownColumn (column : String)
  /-- A name that is no operator. -/
  | invalidOperator (operator : String)
  /-- An operand of the wrong kind. -/
  | typeMismatch (column expected : String)
  deriving DecidableEq, Repr

namespace ClauseError

/-- The name of the kind of error. -/
def kind : ClauseError → String
  | .unknownColumn _ => "UnknownColumn"
  | .invalidOperator _ => "InvalidOperator"
  | .typeMismatch .. => "TypeMismatch"

/-- The text of the error. -/
def message : ClauseError → String
  | .unknownColumn column => "unknown column: " ++ column
  | .invalidOperator operator => "invalid operator: " ++ operator
  | .typeMismatch column expected =>
    "type mismatch for column " ++ column ++ ": expected " ++ expected

/-- The error as one of the storage layer. -/
def toError (e : ClauseError) : Error := .storage e.message

end ClauseError

/-- What a clause asks of a single column. -/
inductive Operator where
  /-- Equal to the operand. -/
  | eq
  /-- Different from the operand. -/
  | ne
  /-- Greater than the operand. -/
  | gt
  /-- Greater than the operand or equal to it. -/
  | gte
  /-- Less than the operand. -/
  | lt
  /-- Less than the operand or equal to it. -/
  | lte
  /-- Among the items of the operand. -/
  | isIn
  /-- Not among the items of the operand. -/
  | isNotIn
  /-- Matching the pattern. -/
  | like
  /-- Null. -/
  | isNull
  /-- Not null. -/
  | isNotNull
  deriving DecidableEq, Repr

/-- The operator of a name; some have two names. -/
def Operator.ofName? : String → Option Operator
  | "$eq" => some .eq
  | "$ne" => some .ne
  | "$gt" => some .gt
  | "$gte" => some .gte
  | "$lt" => some .lt
  | "$lte" => some .lte
  | "$in" => some .isIn
  | "$nin" | "$notIn" => some .isNotIn
  | "$like" => some .like
  | "$null" | "$isNull" => some .isNull
  | "$notNull" | "$isNotNull" => some .isNotNull
  | _ => none

/-- The description of an operator. -/
def Operator.describe : Operator → String
  | .eq => "Eq"
  | .ne => "Ne"
  | .gt => "Gt"
  | .gte => "Gte"
  | .lt => "Lt"
  | .lte => "Lte"
  | .isIn => "In"
  | .isNotIn => "NotIn"
  | .like => "Like"
  | .isNull => "IsNull"
  | .isNotNull => "IsNotNull"

/-- The condition that an operator and its operand stand for. Order comparisons take numbers and
texts only, and the two tests for null turn into each other if their operand is false. -/
def Operator.condition (operator : Operator) (column : ColumnName) (operand : Value) :
    Except ClauseError Condition :=
  let mismatch (expected : String) : Except ClauseError Condition :=
    .error (.typeMismatch column.column expected)
  let ordered (comparison : Comparison) : Except ClauseError Condition :=
    if operand.isRangeable then .ok (.compare comparison column (.ofValue operand))
    else mismatch "number or string"
  match operator with
  | .eq => .ok (.hasValue column operand)
  | .ne =>
    if operand.isNull then .ok (.isNotNull column)
    else .ok (.compare .ne column (.ofValue operand))
  | .gt => ordered .gt
  | .gte => ordered .gte
  | .lt => ordered .lt
  | .lte => ordered .lte
  | .isIn =>
    match operand with
    | .array items => .ok (.hasAnyValue column items)
    | _ => mismatch "array"
  | .isNotIn =>
    match operand with
    | .array [] => .ok .always
    | .array items => .ok (.isNotIn column (items.map Literal.ofValue))
    | _ => mismatch "array"
  | .like =>
    match operand with
    | .string pattern => .ok (.like column pattern)
    | _ => mismatch "string"
  | .isNull => if operand.bool? = some false then .ok (.isNotNull column) else .ok (.isNull column)
  | .isNotNull =>
    if operand.bool? = some false then .ok (.isNull column) else .ok (.isNotNull column)

namespace Clause

/-- Whether a key names a group of clauses, or at least tries to. -/
def isGroupKey (key : String) : Bool := key.toList.head? == some '$'

/-- Whether a group has a known key and is a list of field maps. -/
def checkGroupShape (key : String) (value : Value) : Except ClauseError Unit :=
  if key ≠ "$and" ∧ key ≠ "$or" then .error (.invalidOperator key)
  else match value with
    | .array items =>
      if items.all fun item => item.fields?.isSome then .ok ()
      else .error (.typeMismatch key "object")
    | _ => .error (.typeMismatch key "array of objects")

mutual

/-- Check that a clause uses only allowed columns, at every depth. -/
def check (allowed : List String) : List (String × Value) → Except ClauseError Unit
  | [] => .ok ()
  | (key, value) :: rest => do
    if isGroupKey key then
      checkGroupShape key value
      checkGroup allowed value
    else if !allowed.contains key then
      .error (.unknownColumn key)
    check allowed rest

/-- Check the clauses of a group. -/
def checkGroup (allowed : List String) : Value → Except ClauseError Unit
  | .array items => checkItems allowed items
  | _ => .ok ()

/-- Check the field maps among values as clauses. -/
def checkItems (allowed : List String) : List Value → Except ClauseError Unit
  | [] => .ok ()
  | item :: rest => do
    checkItem allowed item
    checkItems allowed rest

/-- Check a field map as a clause. -/
def checkItem (allowed : List String) : Value → Except ClauseError Unit
  | .object fields => check allowed fields
  | _ => .ok ()

end

/-- The conditions of the operators of one column, in the order of their names. -/
def operatorConditions (column : ColumnName) :
    List (String × Value) → Except ClauseError (List Condition)
  | [] => .ok []
  | (name, operand) :: rest => do
    match Operator.ofName? name with
    | none => .error (.invalidOperator name)
    | some operator =>
      let condition ← operator.condition column operand
      let conditions ← operatorConditions column rest
      return condition :: conditions

/-- The conditions of one column: operators, or a value to be equal to. -/
def columnConditions (column : ColumnName) : Value → Except ClauseError (List Condition)
  | .object operators => operatorConditions column operators
  | .array _ => .error (.typeMismatch column.column "scalar or operator object")
  | value => .ok [.hasValue column value]

/-- The conditions of a group as one. -/
def groupCondition (key : String) (groups : List Condition) : Condition :=
  if key = "$or" then .anyOf groups else .allOf groups

mutual

/-- The conditions of a clause on a table, in the order of its keys. -/
def conditions (table : String) : List (String × Value) → Except ClauseError (List Condition)
  | [] => .ok []
  | (key, value) :: rest => do
    let here ←
      if isGroupKey key then do
        checkGroupShape key value
        let groups ← groupConditions table value
        pure [groupCondition key groups]
      else columnConditions ⟨table, key⟩ value
    let others ← conditions table rest
    return here ++ others

/-- The conditions of the clauses of a group. -/
def groupConditions (table : String) : Value → Except ClauseError (List Condition)
  | .array items => itemConditions table items
  | _ => .ok []

/-- One condition for every clause in a list. -/
def itemConditions (table : String) : List Value → Except ClauseError (List Condition)
  | [] => .ok []
  | item :: rest => do
    let here ← itemCondition table item
    let others ← itemConditions table rest
    return here :: others

/-- The condition of one clause of a group. -/
def itemCondition (table : String) : Value → Except ClauseError Condition
  | .object fields => return .allOf (← conditions table fields)
  | _ => .ok .always

end

end Clause

end Sql

end Warden
