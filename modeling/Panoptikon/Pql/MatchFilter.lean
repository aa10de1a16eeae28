import Panoptikon.Pql.Columns

/-!
# The match filter, in memory and in SQL

`pql/builder/filters/match_filter.rs`. A record of optional fields, one for
each column, is a function from columns; it is visited in the source's order.
`evaluateMatch` is the reading the file scanner applies to a candidate row,
`buildMatchesExpression` the condition the query compiler emits.
-/

namespace Panoptikon.Pql

open Foundation.Sql

/-- How compiling a query fails: an error it returns, or a panic. -/
inductive Failure where
  | invalid (message : String)
  | panicked

inductive OneOrMany (Elem : Type) where
  | one (value : Elem)
  | many (values : List Elem)

def MatchValues := ∀ column : Column, Option (OneOrMany column.Domain)

def MatchValue := ∀ column : Column, Option column.Domain

inductive FieldValue where
  | int (value : Int)
  | float (value : ℚ)
  | string (value : String)
deriving DecidableEq

inductive FieldValues where
  | single (value : FieldValue)
  | many (values : List FieldValue)

def Column.Kind.field : (kind : Column.Kind) → kind.Domain → FieldValue
  | .int, value => .int value
  | .float, value => .float value
  | .string, value => .string value

/-- `FieldValue::to_expr`. -/
def FieldValue.toValue : FieldValue → Value
  | .int value => .int value
  | .float value => .real value
  | .string value => .text value

def convertOneOrMany {Elem : Type} (value : OneOrMany Elem) (mapper : Elem → FieldValue) :
    FieldValues :=
  match value with
  | .one inner => .single (mapper inner)
  | .many values => .many (values.map mapper)

def collectMatchValueFields (values : MatchValue) : List (Column × FieldValue) :=
  Column.collected.filterMap fun column =>
    (values column).map fun value => (column, column.kind.field value)

def collectMatchValuesFields (values : MatchValues) : List (Column × FieldValues) :=
  Column.collected.filterMap fun column =>
    (values column).map fun value => (column, convertOneOrMany value column.kind.field)

/-- `MatchOp`, and `MatchOperator` beside it. -/
inductive MatchOp where
  | eq
  | neq
  | in_
  | notIn
  | gt
  | gte
  | lt
  | lte
  | startsWith
  | notStartsWith
  | endsWith
  | notEndsWith
  | contains
  | notContains
deriving DecidableEq

structure MatchOps where
  eq : Option MatchValue := none
  neq : Option MatchValue := none
  in_ : Option MatchValues := none
  nin : Option MatchValues := none
  gt : Option MatchValue := none
  gte : Option MatchValue := none
  lt : Option MatchValue := none
  lte : Option MatchValue := none
  startswith : Option MatchValues := none
  not_startswith : Option MatchValues := none
  endswith : Option MatchValues := none
  not_endswith : Option MatchValues := none
  contains : Option MatchValues := none
  not_contains : Option MatchValues := none

inductive Matches where
  | and_ (operands : List MatchOps)
  | or_ (operands : List MatchOps)
  | not_ (operand : MatchOps)
  | ops (operand : MatchOps)

structure Match where
  match_ : Matches

inductive Operand where
  | value (values : MatchValue)
  | list (values : MatchValues)

/-- The operands that are present, in the order both readings visit them. -/
def MatchOps.operands (ops : MatchOps) : List (MatchOp × Operand) :=
  [(.eq, ops.eq.map .value), (.neq, ops.neq.map .value), (.in_, ops.in_.map .list),
   (.notIn, ops.nin.map .list), (.gt, ops.gt.map .value), (.gte, ops.gte.map .value),
   (.lt, ops.lt.map .value), (.lte, ops.lte.map .value),
   (.startsWith, ops.startswith.map .list), (.notStartsWith, ops.not_startswith.map .list),
   (.endsWith, ops.endswith.map .list), (.notEndsWith, ops.not_endswith.map .list),
   (.contains, ops.contains.map .list), (.notContains, ops.not_contains.map .list)].filterMap
    fun entry => entry.2.map fun operand => (entry.1, operand)

section Evaluate

abbrev ObjFields := List (Column × FieldValue)

/-- Integers meet floats as floats in the source; the columns of a match never
mix the two. -/
def compareOrdered (left right : FieldValue) (check : Ordering → Bool) : Bool :=
  match left, right with
  | .int left, .int right => check (compare left right)
  | .float left, .float right => check (compare left right)
  | .int left, .float right => check (compare (left : ℚ) right)
  | .float left, .int right => check (compare left (right : ℚ))
  | .string left, .string right => check (compare left right)
  | _, _ => false

def compareField (fieldValue value : FieldValue) : MatchOp → Bool
  | .eq => fieldValue = value
  | .neq => fieldValue ≠ value
  | .gt => compareOrdered fieldValue value (·.isGT)
  | .gte => compareOrdered fieldValue value fun ordering => ordering.isGT || ordering.isEq
  | .lt => compareOrdered fieldValue value (·.isLT)
  | .lte => compareOrdered fieldValue value fun ordering => ordering.isLT || ordering.isEq
  | _ => false

def FieldValues.toList : FieldValues → List FieldValue
  | .single value => [value]
  | .many values => values

def stringListCheck (fieldValue : FieldValue) (values : FieldValues) (op : MatchOp)
    (check : String → String → Bool) : Bool :=
  match fieldValue with
  | .string fieldStr =>
      let negate := op = .notStartsWith ∨ op = .notEndsWith ∨ op = .notContains
      let results := values.toList.map fun value =>
        match value with
        | .string pattern => check fieldStr pattern
        | _ => false
      if negate then results.all fun result => !result else results.any fun result => result
  | _ => false

def strStartsWith (value pattern : String) : Bool := decide (pattern.toList <+: value.toList)
def strEndsWith (value pattern : String) : Bool := decide (pattern.toList <:+ value.toList)
def strContains (value pattern : String) : Bool := decide (pattern.toList <:+: value.toList)

def compareFieldList (fieldValue : FieldValue) (values : FieldValues) (op : MatchOp) : Bool :=
  match op with
  | .in_ =>
      match values with
      | .many list => list.any fun value => fieldValue = value
      | .single _ => false
  | .notIn =>
      match values with
      | .many list => list.all fun value => fieldValue ≠ value
      | .single _ => false
  | .startsWith | .notStartsWith => stringListCheck fieldValue values op strStartsWith
  | .endsWith | .notEndsWith => stringListCheck fieldValue values op strEndsWith
  | .contains | .notContains => stringListCheck fieldValue values op strContains
  | _ => false

def evaluateMatchValues (values : MatchValue) (objFields : ObjFields) (op : MatchOp) :
    List Bool :=
  (collectMatchValueFields values).filterMap fun field =>
    (objFields.lookup field.1).map fun fieldValue => compareField fieldValue field.2 op

def evaluateMatchValueLists (values : MatchValues) (objFields : ObjFields) (op : MatchOp) :
    List Bool :=
  (collectMatchValuesFields values).filterMap fun field =>
    (objFields.lookup field.1).map fun fieldValue => compareFieldList fieldValue field.2 op

def evaluateOperand (objFields : ObjFields) : MatchOp × Operand → List Bool
  | (op, .value values) => evaluateMatchValues values objFields op
  | (op, .list values) => evaluateMatchValueLists values objFields op

def evaluateMatchOps (ops : MatchOps) (objFields : ObjFields) : Bool :=
  let results := ops.operands.flatMap (evaluateOperand objFields)
  if results.isEmpty then true else results.all id

def evaluateMatches (matches_ : Matches) (objFields : ObjFields) : Bool :=
  match matches_ with
  | .ops ops => evaluateMatchOps ops objFields
  | .and_ operands => operands.all fun ops => evaluateMatchOps ops objFields
  | .or_ operands => operands.any fun ops => evaluateMatchOps ops objFields
  | .not_ operand => !evaluateMatchOps operand objFields

def evaluateMatch (filter : Match) (obj : MatchValue) : Bool :=
  evaluateMatches filter.match_ (collectMatchValueFields obj)

end Evaluate

section Build

/-- `format!` of a float; only reached for a pattern on a float column. -/
structure FloatText where
  display : ℚ → String

variable (floats : FloatText)

def FieldValue.toStringValue : FieldValue → String
  | .int value => toString value
  | .float value => floats.display value
  | .string value => value

/-- `expressions.drain(..1)` panics on an empty list. -/
def combine (connective : Expr → Expr → Expr) : List Expr → Except Failure Expr
  | [] => .error .panicked
  | first :: rest => .ok (rest.foldl connective first)

def combineAnd : List Expr → Except Failure Expr := combine .and
def combineOr : List Expr → Except Failure Expr := combine .or

def buildMatchValueExpressions (values : MatchValue) (operator : MatchOp) (allowText : Bool) :
    Except Failure (List Expr) :=
  (collectMatchValueFields values).mapM fun (column, value) =>
    if !allowText && column.isTextColumn then
      .error (.invalid "Text columns are not allowed in this context")
    else
      match operator with
      | .eq => .ok (.compare .eq column.expr (.val value.toValue))
      | .neq => .ok (.compare .ne column.expr (.val value.toValue))
      | .gt => .ok (.compare .gt column.expr (.val value.toValue))
      | .gte => .ok (.compare .gte column.expr (.val value.toValue))
      | .lt => .ok (.compare .lt column.expr (.val value.toValue))
      | .lte => .ok (.compare .lte column.expr (.val value.toValue))
      | _ => .error (.invalid "Invalid operator for MatchValue")

def buildInExpression (column : Expr) (value : FieldValues) (negate : Bool) :
    Except Failure Expr :=
  match value with
  | .single _ => .error (.invalid "Invalid operator for single value")
  | .many values =>
      if values.isEmpty then .error (.invalid "Empty list for in/nin operator")
      else if negate then .ok (.isNotIn column (values.map FieldValue.toValue))
      else .ok (.isIn column (values.map FieldValue.toValue))

inductive LikeKind where
  | startsWith
  | endsWith
  | contains

def LikeKind.makePattern (kind : LikeKind) (raw : String) : String :=
  match kind with
  | .startsWith => raw ++ "%"
  | .endsWith => "%" ++ raw
  | .contains => "%" ++ raw ++ "%"

def buildLikeExpression (column : Expr) (values : FieldValues) (kind : LikeKind)
    (negate : Bool) : Except Failure Expr :=
  let buildSingle (value : FieldValue) : Expr :=
    let pattern := kind.makePattern (value.toStringValue floats)
    if negate then .notLike column pattern else .like column pattern
  match values with
  | .single value => .ok (buildSingle value)
  | .many values =>
      if negate then combineAnd (values.map buildSingle) else combineOr (values.map buildSingle)

def buildMatchValuesExpressions (values : MatchValues) (operator : MatchOp) (allowText : Bool) :
    Except Failure (List Expr) :=
  (collectMatchValuesFields values).mapM fun (column, value) =>
    if !allowText && column.isTextColumn then
      .error (.invalid "Text columns are not allowed in this context")
    else
      match operator with
      | .in_ => buildInExpression column.expr value false
      | .notIn => buildInExpression column.expr value true
      | .startsWith => buildLikeExpression floats column.expr value .startsWith false
      | .notStartsWith => buildLikeExpression floats column.expr value .startsWith true
      | .endsWith => buildLikeExpression floats column.expr value .endsWith false
      | .notEndsWith => buildLikeExpression floats column.expr value .endsWith true
      | .contains => buildLikeExpression floats column.expr value .contains false
      | .notContains => buildLikeExpression floats column.expr value .contains true
      | _ => .error (.invalid "Invalid operator for MatchValues")

def buildOperand (allowText : Bool) : MatchOp × Operand → Except Failure (List Expr)
  | (op, .value values) => buildMatchValueExpressions values op allowText
  | (op, .list values) => buildMatchValuesExpressions floats values op allowText

def buildMatchOpsExpression (ops : MatchOps) (allowText : Bool) : Except Failure Expr := do
  let expressions ← ops.operands.mapM (buildOperand floats allowText)
  if expressions.flatten.isEmpty then
    .error (.invalid "No valid expressions found in MatchOps")
  else combineAnd expressions.flatten

def buildMatchesExpression (matches_ : Matches) (allowText : Bool) : Except Failure Expr :=
  match matches_ with
  | .ops ops => buildMatchOpsExpression floats ops allowText
  | .and_ operands => do
      combineAnd (← operands.mapM fun ops => buildMatchOpsExpression floats ops allowText)
  | .or_ operands => do
      combineOr (← operands.mapM fun ops => buildMatchOpsExpression floats ops allowText)
  | .not_ operand => do
      return .not (← buildMatchOpsExpression floats operand allowText)

end Build

end Panoptikon.Pql
