import Panoptikon.Foundation.Sql.Expr

/-!
# SELECT

A source joined to further tables, filtered, grouped and projected; a union of
such selects; and the WITH clause that names the rows of one select for the
next ones. The rows are those the statement returns, in an order that ORDER BY
fixes and nothing else does.
-/

namespace Foundation.Sql

inductive JoinKind where
  | inner
  | left

/-- A table joined under a name, on a condition. -/
structure Join where
  kind : JoinKind
  table : String
  name : String
  on : Expr

structure OrderTerm where
  expr : Expr
  descending : Bool := false
  nullsLast : Bool := false

inductive Item where
  | expr (value : Expr) (name : String)
  /-- Every column of one source. -/
  | star (source : String)
  /-- `row_number() OVER (PARTITION BY … ORDER BY …)`. -/
  | rowNumber (partition : List Expr) (order : List OrderTerm) (name : String)

structure SelectCore where
  items : List Item
  source : String
  sourceName : String
  joins : List Join := []
  conditions : List Expr := []
  groupBy : List Expr := []
  having : List Expr := []
  orderBy : List OrderTerm := []

/-- A select, and the selects it is united with. -/
structure Select where
  core : SelectCore
  unions : List SelectCore := []

/-- A count of the rows of a select, or of the distinct values of one column. -/
structure CountQuery where
  inner : SelectCore
  counted : Option String

section Evaluation

variable (dialect : Dialect) (tables : Tables)

def Join.matched (join : Join) (scope : Scope) : List Scope :=
  ((tables join.table).map fun row => (join.name, row) :: scope).filter
    fun extended => join.on.holds dialect tables extended

/-- A left join keeps a scope that matches nothing, with a row of NULLs. -/
def Join.extend (join : Join) (scope : Scope) : List Scope :=
  match join.kind with
  | .inner => join.matched dialect tables scope
  | .left =>
      if (join.matched dialect tables scope).isEmpty then [(join.name, []) :: scope]
      else join.matched dialect tables scope

def joinAll : List Join → Scope → List Scope
  | [], scope => [scope]
  | join :: rest, scope => (join.extend dialect tables scope).flatMap (joinAll rest)

namespace SelectCore

variable (core : SelectCore)

/-- What one row of the source contributes. -/
def scopesOf (row : Row) : List Scope :=
  (joinAll dialect tables core.joins [(core.sourceName, row)]).filter fun scope =>
    core.conditions.all fun condition => condition.holds dialect tables scope

def scopes : List Scope := (tables core.source).flatMap (core.scopesOf dialect tables)

def groupKey (scope : Scope) : List Value :=
  core.groupBy.map fun expr => (expr.eval dialect tables [scope] scope).canon

def groups : List (List Scope) :=
  if core.groupBy.isEmpty then (core.scopes dialect tables).map fun scope => [scope]
  else
    ((core.scopes dialect tables).map (core.groupKey dialect tables)).dedup.map fun key =>
      (core.scopes dialect tables).filter fun scope => core.groupKey dialect tables scope = key

/-- The member of a group its bare columns are read from. -/
def representative (group : List Scope) : Scope :=
  group.getD (dialect.pick group % group.length) []

def evalGroup (expr : Expr) (group : List Scope) : Value :=
  expr.eval dialect tables group (representative dialect group)

def survivors : List (List Scope) :=
  (core.groups dialect tables).filter fun group =>
    core.having.all fun condition => decide ((evalGroup dialect tables condition group).truth =
      some true)

end SelectCore

/-- How ORDER BY compares two values: NULL first in an ascending order, unless
told last. -/
def OrderTerm.compare (term : OrderTerm) (left right : Value) : Ordering :=
  if term.nullsLast ∧ left = .null ∧ right ≠ .null then .gt
  else if term.nullsLast ∧ right = .null ∧ left ≠ .null then .lt
  else if term.descending then right.order left
  else left.order right

/-- The first term that tells two sort keys apart. -/
def compareKeys : List OrderTerm → List Value → List Value → Ordering
  | term :: terms, left :: lefts, right :: rights =>
      (term.compare left right).then (compareKeys terms lefts rights)
  | _, _, _ => .eq

/-- The place of a group in its window partition. -/
def windowPlace (partition : List Expr) (order : List OrderTerm) (all : List (List Scope))
    (index : Nat) (group : List Scope) : Nat :=
  let partitionOf (group : List Scope) : List Value :=
    partition.map fun expr => (SelectCore.evalGroup dialect tables expr group).canon
  let orderOf (group : List Scope) : List Value :=
    order.map fun term => SelectCore.evalGroup dialect tables term.expr group
  1 + (all.zipIdx.filter fun other =>
    decide (partitionOf other.1 = partitionOf group) &&
      match compareKeys order (orderOf other.1) (orderOf group) with
      | .lt => true
      | .eq => decide (other.2 < index)
      | .gt => false).length

def Item.columns (all : List (List Scope)) (index : Nat) (group : List Scope) : Item → Row
  | .expr value name => [(name, SelectCore.evalGroup dialect tables value group)]
  | .star source => (SelectCore.representative dialect group).table source
  | .rowNumber partition order name =>
      [(name, .int (windowPlace dialect tables partition order all index group))]

namespace SelectCore

variable (core : SelectCore)

def output (all : List (List Scope)) (index : Nat) (group : List Scope) : Row :=
  core.items.flatMap (Item.columns dialect tables all index group)

/-- The rows before ORDER BY, each with the scope it is ordered in: a bare name
is an output column first. -/
def produced : List (List Scope × Row) :=
  let all := core.survivors dialect tables
  all.zipIdx.map fun (group, index) => (group, core.output dialect tables all index group)

def sortKey (entry : List Scope × Row) : List Value :=
  core.orderBy.map fun term =>
    term.expr.eval dialect tables entry.1 (("", entry.2) :: representative dialect entry.1)

def rows : List Row :=
  let entries := core.produced dialect tables
  let sorted :=
    if core.orderBy.isEmpty then entries
    else entries.mergeSort fun left right =>
      (compareKeys core.orderBy (core.sortKey dialect tables left)
        (core.sortKey dialect tables right)).isLE
  sorted.map Prod.snd

end SelectCore

def Row.canon (row : Row) : Row := row.map fun column => (column.1, column.2.canon)

/-- One element for each key. -/
def distinctBy {Elem Key : Type} [DecidableEq Key] (key : Elem → Key) : List Elem → List Elem
  | [] => []
  | elem :: rest =>
      if key elem ∈ rest.map key then distinctBy key rest else elem :: distinctBy key rest

section Distinct

variable {Elem Key : Type} [DecidableEq Key] {key : Elem → Key}

theorem mem_of_mem_distinct_by {elems : List Elem} {elem : Elem}
    (member : elem ∈ distinctBy key elems) : elem ∈ elems := by
  induction elems with
  | nil => exact member
  | cons first rest ih =>
    unfold distinctBy at member
    split at member
    · exact List.mem_cons_of_mem _ (ih member)
    · rcases List.mem_cons.mp member with rfl | later
      · exact List.mem_cons_self
      · exact List.mem_cons_of_mem _ (ih later)

theorem mem_distinct_by {elems : List Elem} {elem : Elem}
    (apart : ∀ left ∈ elems, ∀ right ∈ elems, key left = key right → left = right) :
    elem ∈ distinctBy key elems ↔ elem ∈ elems := by
  refine ⟨mem_of_mem_distinct_by, fun member => ?_⟩
  induction elems with
  | nil => exact member
  | cons first rest ih =>
    have later : ∀ left ∈ rest, ∀ right ∈ rest, key left = key right → left = right :=
      fun left isLeft right isRight =>
        apart left (List.mem_cons_of_mem _ isLeft) right (List.mem_cons_of_mem _ isRight)
    unfold distinctBy
    split
    · rename_i repeated
      rcases List.mem_cons.mp member with rfl | inRest
      · obtain ⟨other, isOther, same⟩ := List.mem_map.mp repeated
        have equal := apart other (List.mem_cons_of_mem _ isOther) _ List.mem_cons_self same
        exact ih later (equal ▸ isOther)
      · exact ih later inRest
    · rcases List.mem_cons.mp member with rfl | inRest
      · exact List.mem_cons_self
      · exact List.mem_cons_of_mem _ (ih later inRest)

theorem distinct_by_nodup (elems : List Elem) : (distinctBy key elems).Nodup := by
  induction elems with
  | nil => exact List.nodup_nil
  | cons first rest ih =>
    unfold distinctBy
    split
    · exact ih
    · rename_i fresh
      exact List.nodup_cons.mpr
        ⟨fun member => fresh (List.mem_map_of_mem (mem_of_mem_distinct_by member)), ih⟩

end Distinct

/-- UNION drops repeated rows. -/
def Select.rows (select : Select) : List Row :=
  if select.unions.isEmpty then select.core.rows dialect tables
  else
    distinctBy Row.canon
      ((select.core :: select.unions).flatMap fun core => core.rows dialect tables)

def CountQuery.total (query : CountQuery) : Nat :=
  match query.counted with
  | none => (query.inner.rows dialect tables).length
  | some column => distinctCount ((query.inner.rows dialect tables).map fun row => row.get column)

end Evaluation

structure CteDefinition where
  name : String
  query : Select
  materialized : Bool := false

/-- Later definitions see the earlier ones; a name stands for its rows. -/
def bindCtes (dialect : Dialect) (tables : Tables) (ctes : List CteDefinition) : Tables :=
  ctes.foldl (fun bound cte =>
    Function.update bound cte.name (cte.query.rows dialect bound)) tables

variable (dialect : Dialect)

@[simp] theorem bind_ctes_nil (tables : Tables) :
    bindCtes dialect tables [] = tables := rfl

@[simp] theorem bind_ctes_cons (tables : Tables) (cte : CteDefinition)
    (rest : List CteDefinition) : bindCtes dialect tables (cte :: rest) =
      bindCtes dialect (Function.update tables cte.name (cte.query.rows dialect tables)) rest :=
  rfl

theorem bind_ctes_append (tables : Tables) (first second : List CteDefinition) :
    bindCtes dialect tables (first ++ second) =
      bindCtes dialect (bindCtes dialect tables first) second := by
  simp [bindCtes, List.foldl_append]

theorem bind_ctes_of_not_mem {dialect : Dialect} {tables : Tables} {ctes : List CteDefinition}
    {name : String} (fresh : name ∉ ctes.map CteDefinition.name) :
    bindCtes dialect tables ctes name = tables name := by
  induction ctes generalizing tables with
  | nil => rfl
  | cons cte rest ih =>
    rw [List.map_cons, List.mem_cons, not_or] at fresh
    rw [bind_ctes_cons, ih fresh.2, Function.update_of_ne fresh.1]

end Foundation.Sql
