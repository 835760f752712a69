import Warden.Cel.Function
/-! # Evaluation of expressions
`Expr.eval` gives an expression its value. Both sides of a conjunction are evaluated, the right side
of a disjunction only if the left one does not count as true. -/

namespace Warden

namespace Cel

/-- The value of a variable. -/
def Env.get? (env : Env) (name : String) : Outcome Value := Outcome.ofOption (env.lookup name)

/-- The entry of an object by a name. A name that is a function's is that function, on the object. -/
def Value.attribute (object : Value) (name : String) : Outcome Value :=
  let entry := match object with
    | .map _ entries => Value.valueAt? entries (.text name)
    | _ => none
  match entry with
  | some value => .ok value
  | none =>
    if functionNames.contains name then .ok (.function name object)
    else .error (.noSuchKey name)

/-- A value as a key of a map. -/
def Value.toKey (value : Value) : Outcome Key := Outcome.ofOption (Value.key? value)

namespace Expr

mutual

/-- The value of an expression. -/
def eval (env : Env) : Expr → Making Value
  | .null => return .null
  | .bool b => return .bool b
  | .int n => return .int n
  | .double x => return .double x
  | .text s => return .text s
  | .variable name => env.get? name
  | .list items => do Making.list (← evalAll env items)
  | .map entries => do Making.map (← evalEntries env [] entries)
  | .choose condition yes no => do
    if Value.truthy (← eval env condition) then eval env yes else eval env no
  | .or left right => do
    let value ← eval env left
    if Value.truthy value then return value else eval env right
  | .and left right => do
    let a ← eval env left
    let b ← eval env right
    return .bool (Value.truthy a && Value.truthy b)
  | .compare relation left right => do
    let a ← eval env left
    let b ← eval env right
    relation.apply a b
  | .compute operation left right => do
    let a ← eval env left
    let b ← eval env right
    operation.apply a b
  | .signed sign operand => do
    let value ← eval env operand
    sign.apply value
  | .attribute object name => do
    let value ← eval env object
    value.attribute name
  | .index object computed => do
    let value ← eval env object
    let place ← eval env computed
    value.item place
  | .call name arguments =>
    if functionNames.contains name then callFunction name env none (closures arguments)
    else throw .failed
  | .method object name arguments =>
    if functionNames.contains name then do
      let value ← eval env object
      callFunction name env (some value) (closures arguments)
    else throw .failed
  | .make type _ => do
    let _ ← eval env type
    throw .failed

/-- The values of several expressions. -/
def evalAll (env : Env) : List Expr → Making (List Value)
  | [] => return []
  | item :: rest => do
    let value ← eval env item
    return value :: (← evalAll env rest)

/-- The entries of a map; of a repeated key the last one counts. -/
def evalEntries (env : Env) (done : List (Key × Value)) :
    List (Expr × Expr) → Making (List (Key × Value))
  | [] => return done
  | (key, value) :: rest => do
    let key ← eval env key
    let key ← key.toKey
    let value ← eval env value
    evalEntries env (Value.put done key value) rest

/-- Expressions as arguments of a call. -/
def closures : List Expr → List Argument
  | [] => []
  | argument :: rest =>
    ⟨argument.ident?, fun env => eval env argument⟩ :: closures rest

end

end Expr

end Cel

end Warden
