import Warden.Sql.Literal
/-! # SQL conditions
Conditions on the columns of a table, as data: a statement compares them, drops repeated ones and
finally writes them down. `Condition.render` puts parentheses around an operand of `AND` and `OR`
unless it is a single test, or the left operand under the same connective. -/

namespace Warden

namespace Sql

/-- A column of a named table. -/
structure ColumnName where
  /-- The name of the table. -/
  table : String
  /-- The name of the column. -/
  column : String
  deriving DecidableEq, Repr

/-- How a column is written. -/
def ColumnName.render (name : ColumnName) : String :=
  quoteName name.table ++ "." ++ quoteName name.column

/-- A comparison of a column with a literal. -/
inductive Comparison where
  /-- Equal. -/
  | eq
  /-- Not equal. -/
  | ne
  /-- Greater. -/
  | gt
  /-- Greater or equal. -/
  | gte
  /-- Less. -/
  | lt
  /-- Less or equal. -/
  | lte
  deriving DecidableEq, Repr

/-- How a comparison is written. -/
def Comparison.render : Comparison → String
  | .eq => "="
  | .ne => "<>"
  | .gt => ">"
  | .gte => ">="
  | .lt => "<"
  | .lte => "<="

/-- A condition. -/
inductive Condition where
  /-- Holds of no row. -/
  | never
  /-- Holds of every row. -/
  | always
  /-- A column compares with a literal. -/
  | compare (comparison : Comparison) (column : ColumnName) (literal : Literal)
  /-- A column is null. -/
  | isNull (column : ColumnName)
  /-- A column is not null. -/
  | isNotNull (column : ColumnName)
  /-- A column is one of several literals. -/
  | isIn (column : ColumnName) (literals : List Literal)
  /-- A column is none of several literals. -/
  | isNotIn (column : ColumnName) (literals : List Literal)
  /-- A column matches a pattern. -/
  | like (column : ColumnName) (pattern : String)
  /-- Both conditions hold. -/
  | both (left right : Condition)
  /-- At least one of the conditions holds. -/
  | either (left right : Condition)
  deriving Repr, DecidableEq

namespace Condition

/-- Literals equal one by one. -/
def sameLiterals : List Literal → List Literal → Bool
  | [], [] => true
  | a :: as, b :: bs => a.same b && sameLiterals as bs
  | _, _ => false

/-- Equality of form. -/
def same : Condition → Condition → Bool
  | .never, .never => true
  | .always, .always => true
  | .compare p c a, .compare q d b => p == q && c == d && a.same b
  | .isNull c, .isNull d => c == d
  | .isNotNull c, .isNotNull d => c == d
  | .isIn c as, .isIn d bs => c == d && sameLiterals as bs
  | .isNotIn c as, .isNotIn d bs => c == d && sameLiterals as bs
  | .like c p, .like d q => c == d && p == q
  | .both a b, .both c d => a.same c && b.same d
  | .either a b, .either c d => a.same c && b.same d
  | _, _ => false

/-- All conditions together; no condition holds of every row. -/
def allOf : List Condition → Condition
  | [] => .always
  | condition :: rest => rest.foldl .both condition

/-- At least one of several conditions; without any it holds of no row. -/
def anyOf : List Condition → Condition
  | [] => .never
  | condition :: rest => rest.foldl .either condition

/-- A column has a value: the condition of equality, or being null for null. -/
def hasValue (column : ColumnName) : Value → Condition
  | .null => .isNull column
  | value => .compare .eq column (.ofValue value)

/-- A column has one of several values; without any it holds of no row. -/
def hasAnyValue (column : ColumnName) : List Value → Condition
  | [] => .never
  | values => .isIn column (values.map Literal.ofValue)

/-- The columns that a condition mentions. -/
def columns : Condition → List ColumnName
  | .never | .always => []
  | .compare _ column _ | .isNull column | .isNotNull column => [column]
  | .isIn column _ | .isNotIn column _ | .like column _ => [column]
  | .both a b | .either a b => a.columns ++ b.columns

/-- A text between parentheses. -/
def grouped (text : String) : String := "(" ++ text ++ ")"

/-- Literals between parentheses. -/
def renderList (literals : List Literal) : String :=
  grouped (", ".intercalate (literals.map Literal.render))

/-- How a condition is written. -/
def render : Condition → String
  | .never => "1 = 0"
  | .always => "1 = 1"
  | .compare comparison column literal =>
    column.render ++ " " ++ comparison.render ++ " " ++ literal.render
  | .isNull column => column.render ++ " IS NULL"
  | .isNotNull column => column.render ++ " IS NOT NULL"
  | .isIn column literals => column.render ++ " IN " ++ renderList literals
  | .isNotIn column literals => column.render ++ " NOT IN " ++ renderList literals
  | .like column pattern => column.render ++ " LIKE " ++ quoteText pattern
  | .both a b => conjunct a true a.render ++ " AND " ++ conjunct b false b.render
  | .either a b => disjunct a true a.render ++ " OR " ++ disjunct b false b.render
where
  /-- The text of an operand of `AND`. -/
  conjunct : Condition → Bool → String → String
    | .never, _, text | .always, _, text => grouped text
    | .both .., left, text => if left then text else grouped text
    | .either .., _, text => grouped text
    | _, _, text => text
  /-- The text of an operand of `OR`. -/
  disjunct : Condition → Bool → String → String
    | .never, _, text | .always, _, text => grouped text
    | .either .., left, text => if left then text else grouped text
    | .both .., _, text => grouped text
    | _, _, text => text

end Condition

end Sql

end Warden
