import Panoptikon.Foundation.KeyedMap
import Panoptikon.Foundation.Sql.Select
import Panoptikon.Pql.MatchFilter

/-!
# The state of a query build

`QueryState` of `pql/builder.rs` and the helpers every filter compiles with.
A mutable reference to the state is the state before and the state after.
-/

namespace Panoptikon.Pql

open Foundation Foundation.Sql

inductive OrderDirection where
  | asc
  | desc
deriving DecidableEq

inductive ScalarValue where
  | int (value : Int)
  | float (value : ℚ)
  | string (value : String)

structure Rrf where
  k : Int := 1
  weight : ℚ := 1

structure SortableOptions where
  orderBy : Bool := false
  direction : OrderDirection := .asc
  priority : Int := 0
  rowN : Bool := false
  rowNDirection : OrderDirection := .asc
  gt : Option ScalarValue := none
  lt : Option ScalarValue := none
  selectAs : Option String := none
  rrf : Option Rrf := none

structure CteRef where
  name : String

/-- `column_ref` and `column_expr`. -/
def CteRef.column (cte : CteRef) (column : String) : Expr := .column cte.name column

inductive BaseTable where
  | files
  | items
  | itemData
  | extractedText
  | setters
deriving DecidableEq

abbrev JoinedTables := List BaseTable

structure FilterSelect where
  select : SelectCore
  context : CteRef
  joinedTables : JoinedTables

structure ExtraColumn where
  column : String
  cte : CteRef
  label : String

structure OrderByFilter where
  cte : CteRef
  direction : OrderDirection
  priority : Int
  rrf : Option Rrf

structure QueryState where
  orderList : List OrderByFilter := []
  extraColumns : List ExtraColumn := []
  selects : KeyedMap String FilterSelect := ∅
  ctes : List CteDefinition := []
  cteCounter : Nat := 0
  isCountQuery : Bool
  itemDataQuery : Bool
  entity : EntityType
  usesUserData : Bool := false

def equals (left right : Expr) : Expr := .compare .eq left right

/-- A base table joined under its own name. -/
def innerJoin (table : String) (on : Expr) : Join := { kind := .inner, table, name := table, on }

def innerJoinAs (table name : String) (on : Expr) : Join := { kind := .inner, table, name, on }

def leftJoin (table : String) (on : Expr) : Join := { kind := .left, table, name := table, on }

def leftJoinAs (table name : String) (on : Expr) : Join := { kind := .left, table, name, on }

/-- `n{cte_counter}_{kind}`. -/
def QueryState.cteName (state : QueryState) (kind : String) : String :=
  "n" ++ toString state.cteCounter ++ ("_" ++ kind)

def createCte (state : QueryState) (name : String) (query : Select) : CteRef × QueryState :=
  (⟨name⟩, { state with ctes := state.ctes ++ [{ name, query }] })

def createMaterializedCte (state : QueryState) (name : String) (query : Select) :
    CteRef × QueryState :=
  (⟨name⟩, { state with ctes := state.ctes ++ [{ name, query, materialized := true }] })

def wrapQuery (state : QueryState) (query : SelectCore) (context : CteRef) (cteName : String)
    (joinedTables : JoinedTables) : CteRef × QueryState :=
  let (cte, state) := createCte state cteName { core := query }
  (cte, { state with selects := state.selects.insert cteName ⟨query, context, joinedTables⟩ })

def addRankColumnExpr (query : SelectCore) (sort : SortableOptions) (rankExpr : Expr) :
    SelectCore :=
  if sort.rowN && (sort.orderBy || sort.selectAs.isSome) then
    { query with items := query.items ++
        [.rowNumber [] [{ expr := rankExpr, descending := sort.rowNDirection = .desc }]
          "order_rank"] }
  else { query with items := query.items ++ [.expr rankExpr "order_rank"] }

def addSortableRankColumn (query : SelectCore) (sort : SortableOptions) : SelectCore :=
  addRankColumnExpr query sort (.bare "rank")

def scalarToExpr : ScalarValue → Expr
  | .int value => .val (.int value)
  | .float value => .val (.real value)
  | .string value => .val (.text value)

def applySortBounds (state : QueryState) (query : SelectCore) (context : CteRef)
    (cteName : String) (sort : SortableOptions) (joinedTables : JoinedTables) :
    (SelectCore × CteRef × JoinedTables) × QueryState :=
  if state.isCountQuery || (sort.gt.isNone && sort.lt.isNone) then
    ((query, context, joinedTables), state)
  else
    let wrappedName := "wrapped_" ++ cteName
    let (wrappedCte, state) := createCte state wrappedName { core := query }
    let above := sort.gt.toList.map fun bound =>
      Expr.compare .gt (.column wrappedName "order_rank") (scalarToExpr bound)
    let below := sort.lt.toList.map fun bound =>
      Expr.compare .lt (.column wrappedName "order_rank") (scalarToExpr bound)
    let wrappedQuery : SelectCore :=
      { items := [.star wrappedName], source := wrappedName, sourceName := wrappedName,
        conditions := above ++ below }
    ((wrappedQuery, wrappedCte, []), state)

/-- The key columns of a row: the item and the file, and in a text query the
text's data row. -/
def QueryState.stdColumns (state : QueryState) : List String :=
  ["item_id", "file_id"] ++ if state.itemDataQuery then ["data_id"] else []

def selectStdFromCte (cte : CteRef) (state : QueryState) : SelectCore where
  items := state.stdColumns.map fun column => .expr (cte.column column) column
  source := cte.name
  sourceName := cte.name

def getStdGroupBy (cte : CteRef) (state : QueryState) : List Expr :=
  if state.itemDataQuery then [cte.column "data_id", cte.column "file_id"]
  else [cte.column "file_id"]

/-- What a sortable filter leaves behind for the final query: its rank as an
extra column, and its place among the orders. -/
def registerOutputs (state : QueryState) (cte : CteRef) (sort : SortableOptions) : QueryState :=
  let extra := sort.selectAs.toList.map fun label => ⟨"order_rank", cte, label⟩
  let order := if sort.orderBy then [⟨cte, sort.direction, sort.priority, sort.rrf⟩] else []
  { state with
    extraColumns := state.extraColumns ++ extra
    orderList := state.orderList ++ order }

/-- How every sortable filter ends: bounds, its own CTE, the next counter value,
its outputs. -/
def wrapSorted (state : QueryState) (query : SelectCore) (context : CteRef) (cteName : String)
    (sort : SortableOptions) (joinedTables : JoinedTables) : CteRef × QueryState :=
  let ((query, context, joinedTables), state) :=
    applySortBounds state query context cteName sort joinedTables
  let (cte, state) := wrapQuery state query context cteName joinedTables
  let state := { state with cteCounter := state.cteCounter + 1 }
  (cte, if state.isCountQuery then state else registerOutputs state cte sort)

/-- How a filter without a rank ends. -/
def wrapUnsorted (state : QueryState) (query : SelectCore) (context : CteRef) (cteName : String)
    (joinedTables : JoinedTables) : CteRef × QueryState :=
  let (cte, state) := wrapQuery state query context cteName joinedTables
  (cte, { state with cteCounter := state.cteCounter + 1 })

end Panoptikon.Pql
