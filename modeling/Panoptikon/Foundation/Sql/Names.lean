import Panoptikon.Foundation.Sql.Select

/-!
# The names a select mentions

Which tables a select reads, and which sources its expressions name. A select
is within bounds when the former are readable and the latter nameable.
-/

namespace Foundation.Sql

section Within

variable (readable nameable : String → Prop)

mutual

def Expr.Within : Expr → Prop
  | .column table _ => nameable table
  | .bare _ | .val _ => True
  | .compare _ left right => left.Within ∧ right.Within
  | .like operand _ | .notLike operand _ => operand.Within
  | .and left right | .or left right | .concat left right => left.Within ∧ right.Within
  | .not operand | .isNull operand | .isNotNull operand => operand.Within
  | .isIn operand _ | .isNotIn operand _ => operand.Within
  | .fullText table _ _ => nameable table
  | .call _ args => argsWithin args
  | .aggregate _ operand | .countDistinct operand => operand.Within
  | .notExists tables condition =>
      (∀ source ∈ tables, readable source.1 ∧ nameable source.2) ∧ condition.Within

def argsWithin : List Expr → Prop
  | [] => True
  | arg :: rest => arg.Within ∧ argsWithin rest

end

def Join.Within (join : Join) : Prop :=
  readable join.table ∧ nameable join.name ∧ join.on.Within readable nameable

def OrderTerm.Within (term : OrderTerm) : Prop := term.expr.Within readable nameable

def Item.Within : Item → Prop
  | .expr value _ => value.Within readable nameable
  | .star source => nameable source
  | .rowNumber partition order _ =>
      (∀ expr ∈ partition, expr.Within readable nameable) ∧
        ∀ term ∈ order, term.Within readable nameable

structure SelectCore.Within (core : SelectCore) : Prop where
  source : readable core.source
  sourceName : nameable core.sourceName
  items : ∀ item ∈ core.items, item.Within readable nameable
  joins : ∀ join ∈ core.joins, join.Within readable nameable
  conditions : ∀ condition ∈ core.conditions, condition.Within readable nameable
  groupBy : ∀ expr ∈ core.groupBy, expr.Within readable nameable
  having : ∀ condition ∈ core.having, condition.Within readable nameable
  orderBy : ∀ term ∈ core.orderBy, term.Within readable nameable

def Select.Within (select : Select) : Prop :=
  ∀ core ∈ select.core :: select.unions, core.Within readable nameable

end Within

/-- Nothing of that name is read or named. -/
def SelectCore.Avoids (core : SelectCore) (name : String) : Prop :=
  core.Within (· ≠ name) (· ≠ name)

def Select.Avoids (select : Select) (name : String) : Prop :=
  ∀ core ∈ select.core :: select.unions, core.Avoids name

section Mono

variable {readable nameable readable' nameable' : String → Prop}

mutual

theorem Expr.within_mono (tables : ∀ name, readable name → readable' name)
    (names : ∀ name, nameable name → nameable' name) : ∀ expr : Expr,
    expr.Within readable nameable → expr.Within readable' nameable'
  | .column _ _, inside => names _ inside
  | .bare _, _ => trivial
  | .val _, _ => trivial
  | .compare _ left right, inside => ⟨left.within_mono tables names inside.1, right.within_mono tables names inside.2⟩
  | .like operand _, inside => operand.within_mono tables names inside
  | .notLike operand _, inside => operand.within_mono tables names inside
  | .and left right, inside => ⟨left.within_mono tables names inside.1, right.within_mono tables names inside.2⟩
  | .or left right, inside => ⟨left.within_mono tables names inside.1, right.within_mono tables names inside.2⟩
  | .concat left right, inside => ⟨left.within_mono tables names inside.1, right.within_mono tables names inside.2⟩
  | .not operand, inside => operand.within_mono tables names inside
  | .isNull operand, inside => operand.within_mono tables names inside
  | .isNotNull operand, inside => operand.within_mono tables names inside
  | .isIn operand _, inside => operand.within_mono tables names inside
  | .isNotIn operand _, inside => operand.within_mono tables names inside
  | .fullText _ _ _, inside => names _ inside
  | .call _ args, inside => args_within_mono tables names args inside
  | .aggregate _ operand, inside => operand.within_mono tables names inside
  | .countDistinct operand, inside => operand.within_mono tables names inside
  | .notExists _ condition, inside =>
    ⟨fun source member => ⟨tables _ (inside.1 source member).1, names _ (inside.1 source member).2⟩,
      condition.within_mono tables names inside.2⟩

theorem args_within_mono (tables : ∀ name, readable name → readable' name)
    (names : ∀ name, nameable name → nameable' name) : ∀ args : List Expr,
    argsWithin readable nameable args → argsWithin readable' nameable' args
  | [], _ => trivial
  | arg :: rest, inside => ⟨arg.within_mono tables names inside.1, args_within_mono tables names rest inside.2⟩

end

variable (tables : ∀ name, readable name → readable' name) (names : ∀ name, nameable name → nameable' name)

include tables names

theorem SelectCore.within_mono {core : SelectCore} (inside : core.Within readable nameable) :
    core.Within readable' nameable' where
  source := tables _ inside.source
  sourceName := names _ inside.sourceName
  items item member := by
    have within := inside.items item member
    cases item with
    | expr value name => exact value.within_mono tables names within
    | star source => exact names _ within
    | rowNumber partition order name =>
      exact ⟨fun expr isPart => expr.within_mono tables names (within.1 expr isPart),
        fun term isTerm => term.expr.within_mono tables names (within.2 term isTerm)⟩
  joins join member :=
    have within := inside.joins join member
    ⟨tables _ within.1, names _ within.2.1, join.on.within_mono tables names within.2.2⟩
  conditions condition member :=
    condition.within_mono tables names (inside.conditions condition member)
  groupBy expr member := expr.within_mono tables names (inside.groupBy expr member)
  having condition member := condition.within_mono tables names (inside.having condition member)
  orderBy term member := term.expr.within_mono tables names (inside.orderBy term member)

end Mono

end Foundation.Sql
