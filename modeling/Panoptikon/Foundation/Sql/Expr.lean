import Panoptikon.Foundation.Sql.Value
import Panoptikon.Foundation.Sql.Like
import Mathlib.Data.List.Dedup

/-!
# SQL expressions

A row names its columns, a scope names the rows in play. An expression is
evaluated against a scope and, where aggregates occur, the group the scope
stands for. What depends on the engine rather than on the language (the text
of a real number, full-text matching, functions, aggregates other than
counting) is a parameter.
-/

namespace Foundation.Sql

abbrev Row := List (String × Value)

/-- A column the row does not have reads as NULL. -/
def Row.get (row : Row) (column : String) : Value := (row.lookup column).getD .null

abbrev Scope := List (String × Row)

def Scope.table (scope : Scope) (source : String) : Row := (scope.lookup source).getD []

def Scope.get (scope : Scope) (source column : String) : Value := (scope.table source).get column

/-- An unqualified name: the first row that has such a column. -/
def Scope.bare (scope : Scope) (column : String) : Value :=
  ((scope.findSome? fun named => named.2.lookup column)).getD .null

abbrev Tables := String → List Row

structure Dialect where
  caseSensitiveLike : Bool
  /-- The text of a real number or a blob. -/
  render : Value → String
  fullText : String → String → Row → Value → Bool
  call : String → List Value → Value
  aggregate : String → List Value → Value
  /-- Which member of a group its bare columns are read from. -/
  pick : List Scope → Nat

/-- An engine without functions, full-text search or texts of reals, that reads
bare columns from the first row of a group. -/
def Dialect.bare (caseSensitiveLike : Bool) : Dialect where
  caseSensitiveLike := caseSensitiveLike
  render := fun _ => ""
  fullText := fun _ _ _ _ => false
  call := fun _ _ => .null
  aggregate := fun _ _ => .null
  pick := fun _ => 0

/-- The text of a value, for LIKE and `||`. -/
def Dialect.textOf (dialect : Dialect) : Value → Option String
  | .null => none
  | .int number => some (toString number)
  | .text chars => some chars
  | other => some (dialect.render other)

inductive Expr where
  | column (table name : String)
  | bare (name : String)
  | val (value : Value)
  | compare (comparison : Comparison) (left right : Expr)
  | like (operand : Expr) (pattern : String)
  | notLike (operand : Expr) (pattern : String)
  | and (left right : Expr)
  | or (left right : Expr)
  | not (operand : Expr)
  | isNull (operand : Expr)
  | isNotNull (operand : Expr)
  | isIn (operand : Expr) (members : List Value)
  | isNotIn (operand : Expr) (members : List Value)
  | concat (left right : Expr)
  | fullText (table column : String) (query : Value)
  | call (name : String) (args : List Expr)
  | aggregate (name : String) (operand : Expr)
  | countDistinct (operand : Expr)
  | notExists (tables : List (String × String)) (condition : Expr)

def likeTruth (dialect : Dialect) (operand : Value) (pattern : String) : Option Bool :=
  (dialect.textOf operand).map (like dialect.caseSensitiveLike pattern)

/-- Every way to add one row of each table, under its name, to a scope. -/
def extendScope (tables : Tables) : List (String × String) → Scope → List Scope
  | [], scope => [scope]
  | (table, source) :: rest, scope =>
      (tables table).flatMap fun row => extendScope tables rest ((source, row) :: scope)

/-- The number of distinct values that are not NULL. -/
def distinctCount (values : List Value) : Nat :=
  ((values.filter (· ≠ .null)).map Value.canon).dedup.length

mutual

def Expr.eval (dialect : Dialect) (tables : Tables) :
    Expr → List Scope → Scope → Value
  | .column table name, _, scope => scope.get table name
  | .bare name, _, scope => scope.bare name
  | .val value, _, _ => value
  | .compare comparison left right, group, scope =>
      .ofTruth (compareValues comparison (left.eval dialect tables group scope)
        (right.eval dialect tables group scope))
  | .like operand pattern, group, scope =>
      .ofTruth (likeTruth dialect (operand.eval dialect tables group scope) pattern)
  | .notLike operand pattern, group, scope =>
      .ofTruth (notTruth (likeTruth dialect (operand.eval dialect tables group scope) pattern))
  | .and left right, group, scope =>
      .ofTruth (andTruth (left.eval dialect tables group scope).truth
        (right.eval dialect tables group scope).truth)
  | .or left right, group, scope =>
      .ofTruth (orTruth (left.eval dialect tables group scope).truth
        (right.eval dialect tables group scope).truth)
  | .not operand, group, scope =>
      .ofTruth (notTruth (operand.eval dialect tables group scope).truth)
  | .isNull operand, group, scope =>
      .ofTruth (some (operand.eval dialect tables group scope = .null))
  | .isNotNull operand, group, scope =>
      .ofTruth (some (operand.eval dialect tables group scope ≠ .null))
  | .isIn operand members, group, scope =>
      .ofTruth (inTruth (operand.eval dialect tables group scope) members)
  | .isNotIn operand members, group, scope =>
      .ofTruth (notTruth (inTruth (operand.eval dialect tables group scope) members))
  | .concat left right, group, scope =>
      match dialect.textOf (left.eval dialect tables group scope),
        dialect.textOf (right.eval dialect tables group scope) with
      | some left, some right => .text (left ++ right)
      | _, _ => .null
  | .fullText table column query, _, scope =>
      .ofTruth (some (dialect.fullText table column (scope.table table) query))
  | .call name args, group, scope => dialect.call name (evalArgs dialect tables args group scope)
  | .aggregate name operand, group, _ =>
      dialect.aggregate name (group.map fun member => operand.eval dialect tables [member] member)
  | .countDistinct operand, group, _ =>
      .int (distinctCount (group.map fun member => operand.eval dialect tables [member] member))
  | .notExists inner condition, group, scope =>
      .ofTruth (some ((extendScope tables inner scope).all fun extended =>
        decide ((condition.eval dialect tables group extended).truth ≠ some true)))

def evalArgs (dialect : Dialect) (tables : Tables) :
    List Expr → List Scope → Scope → List Value
  | [], _, _ => []
  | arg :: rest, group, scope =>
      arg.eval dialect tables group scope :: evalArgs dialect tables rest group scope

end

/-- The condition holds of a single scope. -/
def Expr.holds (dialect : Dialect) (tables : Tables) (condition : Expr) (scope : Scope) : Bool :=
  decide ((condition.eval dialect tables [scope] scope).truth = some true)

end Foundation.Sql
