import Warden.Cel.Token
/-! # Expressions
The expressions that constraints are written in, and how they are read. From the loosest to the
tightest: a choice `c ? a : b`; `||`; `&&`; one comparison; sums; products; one sign; members. Two
comparisons in a row are no expression, and neither are two signs.

A text is read from left to right, and the first fault decides how the reading ends: a token that
cannot stand in its place ends it as malformed, a literal without a value that can stand in its
place is read once it is known where the next token ends, and then panics. -/

namespace Warden

namespace Cel

/-- Comparisons. -/
inductive Relation where
  /-- Less. -/
  | lt
  /-- Less or equal. -/
  | le
  /-- Greater. -/
  | gt
  /-- Greater or equal. -/
  | ge
  /-- Equal. -/
  | eq
  /-- Not equal. -/
  | ne
  /-- Contained. -/
  | isIn
  deriving DecidableEq, Repr

/-- Operations of arithmetic. -/
inductive Arithmetic where
  /-- Sum; also joins texts, lists and maps. -/
  | add
  /-- Difference. -/
  | sub
  /-- Product. -/
  | mul
  /-- Quotient. -/
  | div
  /-- Remainder. -/
  | rem
  deriving DecidableEq, Repr

/-- Signs in front of an operand. -/
inductive Sign where
  /-- Whether the operand counts as false. -/
  | not
  /-- Whether the operand counts as true. -/
  | notNot
  /-- The opposite number. -/
  | minus
  /-- The same number. -/
  | minusMinus
  deriving DecidableEq, Repr

/-- An expression. -/
inductive Expr where
  /-- No value. -/
  | null
  /-- A truth value. -/
  | bool (value : Bool)
  /-- An integer. -/
  | int (value : Int)
  /-- A binary64. -/
  | double (value : Float)
  /-- A text. -/
  | text (value : String)
  /-- A variable. -/
  | variable (name : String)
  /-- A list. -/
  | list (items : List Expr)
  /-- A map. -/
  | map (entries : List (Expr × Expr))
  /-- A choice. -/
  | choose (condition yes no : Expr)
  /-- A disjunction. -/
  | or (left right : Expr)
  /-- A conjunction. -/
  | and (left right : Expr)
  /-- A comparison. -/
  | compare (relation : Relation) (left right : Expr)
  /-- A calculation. -/
  | compute (operation : Arithmetic) (left right : Expr)
  /-- A signed operand. -/
  | signed (sign : Sign) (operand : Expr)
  /-- An entry of a map, by a name. -/
  | attribute (object : Expr) (name : String)
  /-- An item or entry, by a computed index. -/
  | index (object index : Expr)
  /-- A call of a function. -/
  | call (function : String) (arguments : List Expr)
  /-- A call of a function on an object. -/
  | method (object : Expr) (function : String) (arguments : List Expr)
  /-- An object of a type, made of named fields. No type is known, so that there is no such
  object. -/
  | make (type : Expr) (fields : List (String × Expr))
  deriving Repr, Inhabited

/-- The variable that an expression is, if it is one. -/
def Expr.ident? : Expr → Option String
  | .variable name => some name
  | _ => none

/-! ## Reading -/

/-- Why a text is no expression. -/
inductive Unreadable where
  /-- It breaks the rules of the grammar. -/
  | malformed
  /-- It holds a literal whose reading panics. -/
  | panic (message : String)
  deriving DecidableEq, Repr

/-- A reader: what it reads from the start of tokens, and the tokens that follow. -/
abbrev Parse (α : Type) : Type := StateT (List Token) (Except Unreadable) α

namespace Parse

/-- A text that breaks the rules of the grammar. -/
def malformed {α : Type} : Parse α := throw .malformed

/-- The next token, which stays. -/
def peek : Parse (Option Token) := return (← get).head?

/-- Drop the next token. -/
def drop : Parse Unit := modify List.tail

/-- Drop the next token if it is a symbol. -/
def accept (symbol : String) : Parse Bool := do
  if (← peek) = some (.symbol symbol) then
    drop
    return true
  else return false

/-- Drop the next token, which has to be a symbol. -/
def expect (symbol : String) : Parse Unit := do
  if !(← accept symbol) then malformed

/-- Read a name. -/
def name : Parse String := do
  match ← peek with
  | some (.name name) =>
    drop
    return name
  | _ => malformed

/-- Read a literal without a value, which panics unless the text goes on with what is no token. -/
def unusable {α : Type} (message : String) : Parse α := do
  drop
  if (← peek) = some .unknown then malformed else throw (.panic message)

/-- Read one of several symbols, if one comes next; returns what it stands for. -/
def oneOf {α : Type} (table : List (String × α)) : Parse (Option α) := do
  match ← peek with
  | some (.symbol symbol) =>
    match table.lookup symbol with
    | some meaning =>
      drop
      return some meaning
    | none => return none
  | _ => return none

/-- The symbols of comparisons. -/
def relations : List (String × Relation) :=
  [("<", .lt), ("<=", .le), (">", .gt), (">=", .ge), ("==", .eq), ("!=", .ne), ("in", .isIn)]

/-- The symbols of sums. -/
def additions : List (String × Arithmetic) := [("+", .add), ("-", .sub)]

/-- The symbols of products. -/
def multiplications : List (String × Arithmetic) := [("*", .mul), ("/", .div), ("%", .rem)]

/-- The symbols of signs. -/
def signs : List (String × Sign) :=
  [("!", .not), ("!!", .notNot), ("-", .minus), ("--", .minusMinus)]

mutual

/-- Read an expression. -/
def expression : Nat → Parse Expr
  | 0 => malformed
  | fuel + 1 => do
    let condition ← disjunction fuel
    if ← accept "?" then
      let yes ← disjunction fuel
      expect ":"
      let no ← expression fuel
      return .choose condition yes no
    else return condition

/-- Read conjunctions joined by `||`. -/
def disjunction : Nat → Parse Expr
  | 0 => malformed
  | fuel + 1 => do disjunctionFrom (← conjunction fuel) fuel

/-- Continue a disjunction. -/
def disjunctionFrom (left : Expr) : Nat → Parse Expr
  | 0 => malformed
  | fuel + 1 => do
    if ← accept "||" then disjunctionFrom (.or left (← conjunction fuel)) fuel else return left

/-- Read comparisons joined by `&&`. -/
def conjunction : Nat → Parse Expr
  | 0 => malformed
  | fuel + 1 => do conjunctionFrom (← comparison fuel) fuel

/-- Continue a conjunction. -/
def conjunctionFrom (left : Expr) : Nat → Parse Expr
  | 0 => malformed
  | fuel + 1 => do
    if ← accept "&&" then conjunctionFrom (.and left (← comparison fuel)) fuel else return left

/-- Read a sum, or a comparison of two. -/
def comparison : Nat → Parse Expr
  | 0 => malformed
  | fuel + 1 => do
    let left ← sum fuel
    match ← oneOf relations with
    | some relation => return .compare relation left (← sum fuel)
    | none => return left

/-- Read products joined by `+` and `-`. -/
def sum : Nat → Parse Expr
  | 0 => malformed
  | fuel + 1 => do sumFrom (← product fuel) fuel

/-- Continue a sum. -/
def sumFrom (left : Expr) : Nat → Parse Expr
  | 0 => malformed
  | fuel + 1 => do
    match ← oneOf additions with
    | some operation => sumFrom (.compute operation left (← product fuel)) fuel
    | none => return left

/-- Read operands joined by `*`, `/` and `%`. -/
def product : Nat → Parse Expr
  | 0 => malformed
  | fuel + 1 => do productFrom (← operand fuel) fuel

/-- Continue a product. -/
def productFrom (left : Expr) : Nat → Parse Expr
  | 0 => malformed
  | fuel + 1 => do
    match ← oneOf multiplications with
    | some operation => productFrom (.compute operation left (← operand fuel)) fuel
    | none => return left

/-- Read a member with at most one sign. -/
def operand : Nat → Parse Expr
  | 0 => malformed
  | fuel + 1 => do
    match ← oneOf signs with
    | some sign => return .signed sign (← memberFrom (← primary fuel) fuel)
    | none => memberFrom (← primary fuel) fuel

/-- Continue with members of an object. -/
def memberFrom (object : Expr) : Nat → Parse Expr
  | 0 => malformed
  | fuel + 1 => do
    if ← accept "." then
      let name ← name
      if ← accept "(" then
        memberFrom (.method object name (← expressions ")" fuel)) fuel
      else memberFrom (.attribute object name) fuel
    else if ← accept "[" then
      let index ← expression fuel
      expect "]"
      memberFrom (.index object index) fuel
    else if ← accept "\x7b" then memberFrom (.make object (← fields fuel)) fuel
    else return object

/-- Read a constant, a variable, a call, a list, a map or an expression in parentheses. -/
def primary : Nat → Parse Expr
  | 0 => malformed
  | fuel + 1 => do
    if ← accept "(" then
      let inner ← expression fuel
      expect ")"
      return inner
    else if ← accept "[" then return .list (← expressions "]" fuel)
    else if ← accept "\x7b" then return .map (← entries fuel)
    else if ← accept "true" then return .bool true
    else if ← accept "false" then return .bool false
    else if ← accept "null" then return .null
    else if ← accept "." then reference fuel
    else match ← peek with
      | some (.int value) =>
        drop
        return .int value
      | some (.double value) =>
        drop
        return .double value
      | some (.text value) =>
        drop
        return .text value
      | some (.unusable message) => unusable message
      | _ => reference fuel

/-- Read a variable or a call. -/
def reference : Nat → Parse Expr
  | 0 => malformed
  | fuel + 1 => do
    let name ← name
    if ← accept "(" then return .call name (← expressions ")" fuel) else return .variable name

/-- Read expressions up to a closing symbol. A comma may stand behind the last one. -/
def expressions (closing : String) : Nat → Parse (List Expr)
  | 0 => malformed
  | fuel + 1 => do
    if ← accept closing then return []
    else
      let first ← expression fuel
      if ← accept "," then return first :: (← expressions closing fuel)
      else
        expect closing
        return [first]

/-- Read entries up to the closing brace. A comma may stand behind the last one. -/
def entries : Nat → Parse (List (Expr × Expr))
  | 0 => malformed
  | fuel + 1 => do
    if ← accept "\x7d" then return []
    else
      let key ← expression fuel
      expect ":"
      let value ← expression fuel
      if ← accept "," then return (key, value) :: (← entries fuel)
      else
        expect "\x7d"
        return [(key, value)]

/-- Read named fields up to the closing brace. A comma may stand behind the last one. -/
def fields : Nat → Parse (List (String × Expr))
  | 0 => malformed
  | fuel + 1 => do
    if ← accept "\x7d" then return []
    else
      let key ← name
      expect ":"
      let value ← expression fuel
      if ← accept "," then return (key, value) :: (← fields fuel)
      else
        expect "\x7d"
        return [(key, value)]

end

end Parse

/-- Read a text that holds one expression and nothing else. -/
def Expr.ofText (text : String) : Except Unreadable Expr := do
  let tokens := Token.ofText text
  match ← (Parse.expression (12 * tokens.length + 16)).run tokens with
  | (expr, []) => return expr
  | _ => throw .malformed

end Cel

end Warden
