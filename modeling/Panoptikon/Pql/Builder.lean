import Panoptikon.Pql.VectorFilters

/-!
# The query builder

`pql/builder.rs`: a filter tree compiles to a chain of CTEs, and the query over
its root is completed with joins, columns, orders and a partition, or counted.
-/

namespace Panoptikon.Pql

open Foundation Foundation.Sql

/-- The twelve filters, each a variant of `QueryElement` in the source. -/
inductive Filter where
  | match_ (filter : Match)
  | matchPath (filter : MatchPath)
  | matchText (filter : MatchText)
  | semanticTextSearch (filter : SemanticTextSearch)
  | semanticImageSearch (filter : SemanticImageSearch)
  | similarTo (filter : SimilarTo)
  | matchTags (filter : MatchTags)
  | inBookmarks (filter : InBookmarks)
  | processedBy (filter : ProcessedBy)
  | failedFor (filter : FailedFor)
  | hasUnprocessedData (filter : HasUnprocessedData)
  | inPinboard (filter : InPinboard)

inductive QueryElement where
  | and_ (operands : List QueryElement)
  | or_ (operands : List QueryElement)
  | not_ (operand : QueryElement)
  | filter (filter : Filter)

def Filter.build (floats : FloatText) (filter : Filter) (context : CteRef) (state : QueryState) :
    Build :=
  match filter with
  | .match_ filter => filter.build floats context state
  | .matchPath filter => filter.build context state
  | .matchText filter => filter.build context state
  | .semanticTextSearch filter => filter.build context state
  | .semanticImageSearch filter => filter.build context state
  | .similarTo filter => filter.build context state
  | .matchTags filter => filter.build context state
  | .inBookmarks filter => filter.build context state
  | .processedBy filter => filter.build context state
  | .failedFor filter => filter.build context state
  | .hasUnprocessedData filter => filter.build context state
  | .inPinboard filter => filter.build context state

/-- A CTE that is its own context: what an Or and a Not register. -/
def registerOwn (state : QueryState) (kind : String) (query : Select) : CteRef × QueryState :=
  let cteName := state.cteName kind
  let state := { state with cteCounter := state.cteCounter + 1 }
  let (cte, state) := createCte state cteName query
  (cte, { state with
    selects := state.selects.insert cteName ⟨selectStdFromCte cte state, cte, []⟩ })

def unionQuery (first : CteRef) (rest : List CteRef) (state : QueryState) : Select where
  core := selectStdFromCte first state
  unions := rest.map fun cte => selectStdFromCte cte state

/-- The context's rows that find no partner in `sub`. -/
def antiJoin (context sub : CteRef) (state : QueryState) : Select where
  core :=
    { selectStdFromCte context state with
      joins := [leftJoin sub.name
        (if state.itemDataQuery then
          .and (equals (sub.column "file_id") (context.column "file_id"))
            (equals (sub.column "data_id") (context.column "data_id"))
        else equals (sub.column "file_id") (context.column "file_id"))]
      conditions := [.isNull (sub.column (if state.itemDataQuery then "data_id" else "file_id"))] }

mutual

def processQueryElement (floats : FloatText) :
    QueryElement → CteRef → QueryState → Build
  | .and_ operands, context, state => processAnd floats operands context state
  | .or_ operands, context, state => do
      let (subs, state) ← processOr floats operands context state
      match subs with
      | [] => .error (.invalid "OR operator has no operands")
      | first :: rest => return registerOwn state "or" (unionQuery first rest state)
  | .not_ operand, context, state => do
      let (sub, state) ← processQueryElement floats operand context state
      return registerOwn state ("not_" ++ sub.name) (antiJoin context sub state)
  | .filter filter, context, state => filter.build floats context state

/-- Each operand restricts what the one before left. -/
def processAnd (floats : FloatText) : List QueryElement → CteRef → QueryState → Build
  | [], context, state => .ok (context, state)
  | operand :: rest, context, state => do
      let (current, state) ← processQueryElement floats operand context state
      processAnd floats rest current state

/-- Each operand restricts the same context. -/
def processOr (floats : FloatText) :
    List QueryElement → CteRef → QueryState → Except Failure (List CteRef × QueryState)
  | [], _, state => .ok ([], state)
  | operand :: rest, context, state => do
      let (sub, state) ← processQueryElement floats operand context state
      let (subs, state) ← processOr floats rest context state
      return (sub :: subs, state)

end

inductive OrderByField where
  | column (column : Column)
  | random
deriving DecidableEq

structure OrderArgs where
  orderBy : OrderByField := .column .lastModified
  order : Option OrderDirection := none
  priority : Int := 0

structure PqlQuery where
  query : Option QueryElement := none
  orderBy : List OrderArgs :=
    [{ orderBy := .column .lastModified, order := some .desc, priority := 0 }]
  select : List Column := [.sha256, .path, .lastModified, .type]
  entity : EntityType := .file
  partitionBy : Option (List Column) := none
  seed : Option Int := none
  page : Int := 1
  pageSize : Int := 10

inductive BuildMode where
  | results
  | count
deriving DecidableEq

structure Pagination where
  limit : Nat
  offset : Nat

inductive BuiltQuery where
  | results (query : SelectCore)
  | count (query : CountQuery)

structure PqlBuilderResult where
  query : BuiltQuery
  withClause : List CteDefinition
  extraColumns : List (String × String)
  pagination : Option Pagination
  usesUserData : Bool

def raiseIfInvalid (input : PqlQuery) : Except Failure Unit :=
  if input.entity = .text then .ok ()
  else if input.select.any Column.isTextColumn then
    .error (.invalid "Tried to select text columns in a non-text query")
  else if input.orderBy.any fun order =>
      match order.orderBy with
      | .column column => column.isTextColumn
      | .random => false then
    .error (.invalid "Tried to order by text columns in a non-text query")
  else if (input.partitionBy.getD []).any Column.isTextColumn then
    .error (.invalid "Tried to partition by text columns in a non-text query")
  else .ok ()

/-- The data rows of a text query: those of the file's item, of the entity's type. -/
def entityJoin (entity : EntityType) : Join :=
  innerJoin "item_data" (.and (equals (.column "item_data" "item_id") (.column "files" "item_id"))
    (equals (.column "item_data" "data_type") (.val (.text (entityToDataType entity)))))

/-- Every file, and in a text query every text of it. -/
def startQuery (state : QueryState) : SelectCore where
  items :=
    [.expr (.column "files" "id") "file_id", .expr (.column "files" "item_id") "item_id"] ++
      if state.itemDataQuery then [.expr (.column "item_data" "id") "data_id"] else []
  source := "files"
  sourceName := "files"
  joins := if state.itemDataQuery then [entityJoin state.entity] else []

structure KeyRefs where
  fileId : Expr
  itemId : Expr
  dataId : Option Expr

/-- `get_empty_query`: what a query without filters selects from. -/
def getEmptyQuery (state : QueryState) : SelectCore × KeyRefs × JoinedTables :=
  let start := startQuery state
  let isText := state.itemDataQuery && state.entity = .text
  let query := { start with
    joins := start.joins ++
      if isText then
        [innerJoin "extracted_text" (equals (.column "extracted_text" "id") (.column "item_data" "id"))]
      else [] }
  (query,
    { fileId := .column "files" "id"
      itemId := .column "files" "item_id"
      dataId := if state.itemDataQuery then some (.column "item_data" "id") else none },
    [.files] ++ (if state.itemDataQuery then [.itemData] else []) ++
      if isText then [.extractedText] else [])

def addInnerJoins (query : SelectCore) (entity : EntityType) (keys : KeyRefs)
    (joinedTables : JoinedTables) : SelectCore :=
  let missing (table : BaseTable) (join : Join) : List Join :=
    if table ∈ joinedTables then [] else [join]
  let dataJoins : List Join :=
    match keys.dataId with
    | none => []
    | some dataId =>
        missing .itemData (innerJoin "item_data" (equals (.column "item_data" "id") dataId)) ++
        missing .setters
          (innerJoin "setters" (equals (.column "setters" "id") (.column "item_data" "setter_id"))) ++
        if entity = .text then
          missing .extractedText
            (innerJoin "extracted_text" (equals (.column "extracted_text" "id") dataId))
        else []
  { query with
    joins := query.joins ++
      missing .items (innerJoin "items" (equals (.column "items" "id") keys.itemId)) ++
      missing .files (innerJoin "files" (equals (.column "files" "id") keys.fileId)) ++
      dataJoins }

def pushName (names : List String) (name : String) : List String :=
  if name ∈ names then names else names ++ [name]

def addSelectColumns (select : List Column) (query : SelectCore) (selected : List String) :
    SelectCore × List String :=
  let columns := (distinctBy Column.name select.reverse).reverse.filter fun column =>
    !(column = .fileId || column = .itemId || column = .dataId)
  ({ query with items := query.items ++ columns.map fun column => .expr column.expr column.name },
    (columns.map Column.name).foldl pushName selected)

structure Extras where
  query : SelectCore
  aliases : List (String × String)
  selected : List String

/-- An extra column of the root is an output of the query already. -/
def addExtraColumn (rootCteName : Option String) (extras : Extras) (entry : ExtraColumn × Nat) :
    Extras :=
  let (extra, index) := entry
  if extra.label.isEmpty then extras
  else if some extra.cte.name = rootCteName then
    { extras with
      aliases := extras.aliases ++ [(extra.column, extra.label)]
      selected := pushName extras.selected extra.column }
  else
    let label := "extra_" ++ toString index
    { query := { extras.query with
        items := extras.query.items ++ [.expr (extra.cte.column extra.column) label] }
      aliases := extras.aliases ++ [(label, extra.label)]
      selected := pushName extras.selected label }

def addExtraColumns (query : SelectCore) (state : QueryState) (rootCteName : Option String)
    (selected : List String) : Extras :=
  state.extraColumns.zipIdx.foldl (addExtraColumn rootCteName) ⟨query, [], selected⟩

def addJoins (targets : List CteRef) (query : SelectCore) (keys : KeyRefs)
    (rootCteName lastCteName : Option String) : SelectCore :=
  let wanted := (distinctBy CteRef.name targets.reverse).reverse.filter fun target =>
    !(some target.name = rootCteName || some target.name = lastCteName)
  { query with
    joins := query.joins ++ wanted.map fun target =>
      let onFile := equals (target.column "file_id") keys.fileId
      leftJoin target.name
        (match keys.dataId with
          | some dataId => .and onFile (equals (target.column "data_id") dataId)
          | none => onFile) }

inductive OrderItem where
  | args (args : OrderArgs)
  | filters (group : List OrderByFilter)

/-- Consecutive order filters of one priority form one group. -/
def groupOrders : List (OrderByFilter ⊕ OrderArgs) → List OrderItem
  | [] => []
  | .inr args :: rest => .args args :: groupOrders rest
  | .inl filter :: rest =>
      match rest, groupOrders rest with
      | .inl next :: _, .filters group :: later =>
          if next.priority = filter.priority then .filters (filter :: group) :: later
          else .filters [filter] :: .filters group :: later
      | _, later => .filters [filter] :: later

/-- By descending priority; filters before arguments, each in list order. -/
def combineOrderLists (orderList : List OrderByFilter) (orderArgs : List OrderArgs) :
    List OrderItem :=
  let priority : OrderByFilter ⊕ OrderArgs → Int
    | .inl filter => filter.priority
    | .inr args => args.priority
  groupOrders ((orderList.map Sum.inl ++ orderArgs.map Sum.inr).mergeSort
    fun left right => decide (priority right ≤ priority left))

def getOrderByAndDirection (args : OrderArgs) : OrderByField × OrderDirection :=
  (args.orderBy, args.order.getD (if args.orderBy = .column .lastModified then .desc else .asc))

def getOrderByExpr (field : OrderByField) (seed : Int) : Expr :=
  match field with
  | .random => .call "pk_mix" [.column "files" "id", .val (.int seed)]
  | .column column => column.expr

def orderByName : OrderByField → String
  | .column column => column.name
  | .random => "random"

inductive OrderByColumn where
  | label (label : String) (order : OrderDirection)
  | coalesce (labels : List String) (order : OrderDirection) (rrfs : Option (List Rrf))

def orderSpec (expr : Expr) (order : OrderDirection) : OrderTerm :=
  { expr, descending := order = .desc, nullsLast := true }

def veryLargeNumber : Int := 9223372036854775805

def coalesceRank (column : Expr) (fallback : Int) : Expr :=
  .call "coalesce" [column, .val (.int fallback)]

def buildCoalescedExpr (columns : List Expr) (order : OrderDirection) (rrfs : Option (List Rrf)) :
    Expr :=
  match rrfs with
  | some rrfs =>
      let terms := (columns.zip rrfs).map fun (column, rrf) =>
        Expr.call "*" [.call "/" [.val (.real 1),
          .call "+" [.val (.int rrf.k), coalesceRank column veryLargeNumber]], .val (.real rrf.weight)]
      match terms with
      | [] => .val (.int 0)
      | first :: rest => rest.foldl (fun total term => .call "+" [total, term]) first
  | none =>
      match order with
      | .asc => .call "min" (columns.map fun column => coalesceRank column veryLargeNumber)
      | .desc => .call "max" (columns.map fun column => coalesceRank column (-veryLargeNumber))

structure Orders where
  query : SelectCore
  specs : List OrderTerm
  columns : List OrderByColumn

def rankOf (filter : OrderByFilter) (rootCteName : Option String) : Expr :=
  if some filter.cte.name = rootCteName then .bare "order_rank" else filter.cte.column "order_rank"

def rankLabel (filter : OrderByFilter) (index : Nat) (rootCteName : Option String) : String :=
  if some filter.cte.name = rootCteName then "order_rank"
  else "o" ++ toString index ++ ("_" ++ filter.cte.name ++ "_rank")

/-- The ranks the query has to project under a label of their own. -/
def rankItems (group : List OrderByFilter) (index : Nat) (rootCteName : Option String) :
    List Item :=
  (group.filter fun filter => some filter.cte.name ≠ rootCteName).map fun filter =>
    .expr (rankOf filter rootCteName) (rankLabel filter index rootCteName)

def applyOrderItem (rootCteName : Option String) (selectConds : Bool) (seed : Int)
    (orders : Orders) (entry : OrderItem × Nat) : Orders :=
  let (item, index) := entry
  let project (items : List Item) : SelectCore :=
    if selectConds then { orders.query with items := orders.query.items ++ items } else orders.query
  let columns (column : OrderByColumn) : List OrderByColumn :=
    if selectConds then orders.columns ++ [column] else orders.columns
  match item with
  | .args args =>
      let (field, order) := getOrderByAndDirection args
      let expr := getOrderByExpr field seed
      let label := "o" ++ toString index ++ ("_" ++ orderByName field)
      { query := project [.expr expr label]
        specs := orders.specs ++ [orderSpec expr order]
        columns := columns (.label label order) }
  | .filters [] => orders
  | .filters [filter] =>
      { query := project (rankItems [filter] index rootCteName)
        specs := orders.specs ++ [orderSpec (rankOf filter rootCteName) filter.direction]
        columns := columns (.label (rankLabel filter index rootCteName) filter.direction) }
  | .filters (first :: group) =>
      let filters := first :: group
      let rrfs := if first.rrf.isSome then some (filters.map fun filter => filter.rrf.getD {}) else none
      { query := project (rankItems filters index rootCteName)
        specs := orders.specs ++ [orderSpec (buildCoalescedExpr
          (filters.map fun filter => rankOf filter rootCteName) first.direction rrfs) first.direction]
        columns := columns (.coalesce
          (filters.map fun filter => rankLabel filter index rootCteName) first.direction rrfs) }

def buildOrderBy (query : SelectCore) (rootCteName : Option String) (selectConds : Bool)
    (orderList : List OrderByFilter) (orderArgs : List OrderArgs) (seed : Int) : Orders :=
  (combineOrderLists orderList orderArgs).zipIdx.foldl
    (applyOrderItem rootCteName selectConds seed) ⟨query, [], []⟩

def orderSpecForAlias (column : OrderByColumn) (source : String) : OrderTerm :=
  match column with
  | .label label order => orderSpec (.column source label) order
  | .coalesce labels order rrfs =>
      orderSpec (buildCoalescedExpr (labels.map (Expr.column source)) order rrfs) order

def partitionLabel (column : Column) : String := "part_" ++ column.name

def partitionItems (partitionBy : List Column) : List Item :=
  partitionBy.map fun column => .expr column.expr (partitionLabel column)

/-- The partition's rows with their place in it. -/
def partitionQuery (partitionBy : List Column) (orders : List OrderByColumn)
    (selectCte : CteRef) : SelectCore where
  items := [.star selectCte.name,
    .rowNumber (partitionBy.map fun column => selectCte.column (partitionLabel column))
      (orders.map fun order => orderSpecForAlias order selectCte.name) "partition_rownum"]
  source := selectCte.name
  sourceName := selectCte.name

/-- The first row of each partition. -/
def firstOfPartition (selected : List String) (orders : List OrderByColumn)
    (partitionCte : CteRef) : SelectCore where
  items := selected.map fun name => .expr (partitionCte.column name) name
  source := partitionCte.name
  sourceName := partitionCte.name
  conditions := [equals (partitionCte.column "partition_rownum") (.val (.int 1))]
  orderBy := orders.map fun order => orderSpecForAlias order partitionCte.name

def applyPartitionBy (partitionBy : List Column) (query : SelectCore) (selected : List String)
    (orders : List OrderByColumn) (state : QueryState) : SelectCore × QueryState :=
  let query := { query with items := query.items ++ partitionItems partitionBy }
  let (selectCte, state) := createCte state "select_cte" { core := query }
  let (partitionCte, state) :=
    createCte state "partition_cte" { core := partitionQuery partitionBy orders selectCte }
  (firstOfPartition selected orders partitionCte, state)

/-- The key a partitioned count tells rows apart by. -/
def partitionKey (first : Column) (rest : List Column) : Expr :=
  rest.foldl (fun key column => .concat key column.expr) first.expr

def countRows (query : SelectCore) : CountQuery := { inner := query, counted := none }

def countPartitions (query : SelectCore) (first : Column) (rest : List Column) : CountQuery :=
  { inner := { query with items := query.items ++ [.expr (partitionKey first rest) "partition_key"] }
    counted := some "partition_key" }

def buildWithClause (state : QueryState) (rootCteName lastCteName : Option String) :
    List CteDefinition :=
  match rootCteName, lastCteName with
  | some root, some last =>
      if root ≠ last then state.ctes.filter fun cte => cte.name ≠ root else state.ctes
  | _, _ => state.ctes

/-- The query over the root before it is counted, or given its columns. -/
structure Rooted where
  query : SelectCore
  keys : KeyRefs
  rootCteName : Option String
  lastCteName : Option String
  state : QueryState

def initialState (mode : BuildMode) (entity : EntityType) : QueryState where
  isCountQuery := mode = .count
  itemDataQuery := entity = .text
  entity := entity

def buildRoot (floats : FloatText) (mode : BuildMode) (entity : EntityType)
    (queryRoot : Option QueryElement) : Except Failure Rooted :=
  let state := initialState mode entity
  match queryRoot with
  | some root => do
      let (beginCte, state) := createCte state "begin_cte" { core := startQuery state }
      let (rootCte, state) ← processQueryElement floats root beginCte state
      match state.selects.lookup rootCte.name with
      | none => .error (.invalid "Root CTE not registered")
      | some rootSelect =>
          let keys : KeyRefs :=
            { fileId := rootSelect.context.column "file_id"
              itemId := rootSelect.context.column "item_id"
              dataId := if state.itemDataQuery then some (rootSelect.context.column "data_id")
                else none }
          return {
            query := addInnerJoins rootSelect.select entity keys rootSelect.joinedTables
            keys
            rootCteName := some rootCte.name
            lastCteName := some rootSelect.context.name
            state }
  | none =>
      let (query, keys, joinedTables) := getEmptyQuery state
      .ok {
        query := addInnerJoins query entity keys joinedTables
        keys
        rootCteName := none
        lastCteName := none
        state }

/-- An i64 product read as a u64. -/
def paginate (page pageSize : Int) : Option Pagination :=
  if pageSize ≥ 1 then
    some { limit := pageSize.toNat, offset := (((max page 1 - 1) * pageSize) % 2 ^ 64).toNat }
  else none

def finishCount (partitionBy : Option (List Column)) (rooted : Rooted) : PqlBuilderResult :=
  let query :=
    match partitionBy with
    | none | some [] => countRows rooted.query
    | some (first :: rest) => countPartitions rooted.query first rest
  { query := .count query
    withClause := buildWithClause rooted.state rooted.rootCteName rooted.lastCteName
    extraColumns := []
    pagination := none
    usesUserData := rooted.state.usesUserData }

/-- The results query with its joins, columns and orders, before partitioning. -/
def completeResults (input : PqlQuery) (partitioned : Bool) (rooted : Rooted) : Orders × Extras :=
  let state := rooted.state
  let selected := (if rooted.rootCteName.isSome then ["item_id", "file_id"] else ["file_id", "item_id"]) ++
    if state.itemDataQuery then ["data_id"] else []
  let joinTargets := state.extraColumns.map ExtraColumn.cte ++ state.orderList.map OrderByFilter.cte
  let query := addJoins joinTargets rooted.query rooted.keys rooted.rootCteName rooted.lastCteName
  let (query, selected) := addSelectColumns input.select query selected
  let extras := addExtraColumns query state rooted.rootCteName selected
  (buildOrderBy extras.query rooted.rootCteName partitioned state.orderList input.orderBy
    (input.seed.getD 0), extras)

def finishResults (input : PqlQuery) (partitionBy : Option (List Column)) (rooted : Rooted) :
    PqlBuilderResult :=
  let (orders, extras) := completeResults input partitionBy.isSome rooted
  let (query, state) :=
    match partitionBy with
    | some partitionBy =>
        applyPartitionBy partitionBy orders.query extras.selected orders.columns rooted.state
    | none => ({ orders.query with orderBy := orders.specs }, rooted.state)
  { query := .results query
    withClause := buildWithClause state rooted.rootCteName rooted.lastCteName
    extraColumns := extras.aliases
    pagination := paginate input.page input.pageSize
    usesUserData := state.usesUserData }

/-- An empty partition list means no partitioning. -/
def PqlQuery.partition (input : PqlQuery) : Option (List Column) :=
  input.partitionBy.filter fun columns => !columns.isEmpty

def buildQueryWithRoot (floats : FloatText) (input : PqlQuery) (mode : BuildMode)
    (queryRoot : Option QueryElement) : Except Failure PqlBuilderResult := do
  raiseIfInvalid input
  let rooted ← buildRoot floats mode input.entity queryRoot
  match mode with
  | .count => return finishCount input.partition rooted
  | .results => return finishResults input input.partition rooted

end Panoptikon.Pql
