import Panoptikon.Pql.TreeNames

/-!
# The WITH clause of a build

The query over the root, whatever it is completed with, mentions only CTEs of
the WITH clause, from which a root that is repeated in the query is left out.
-/

namespace Panoptikon.Pql

open Foundation Foundation.Sql

def Rooted.remaining (rooted : Rooted) : List CteDefinition :=
  buildWithClause rooted.state rooted.rootCteName rooted.lastCteName

/-- The query over the root reads the remaining CTEs, and so does every output
that does not belong to the root itself. -/
structure Rooted.InOrder (rooted : Rooted) : Prop where
  ordered : Ordered rooted.remaining
  query : CoreWithin (namesOf rooted.remaining) rooted.query
  fileId : ExprWithin (namesOf rooted.remaining) rooted.keys.fileId
  itemId : ExprWithin (namesOf rooted.remaining) rooted.keys.itemId
  dataId : ∀ expr ∈ rooted.keys.dataId, ExprWithin (namesOf rooted.remaining) expr
  outputs : OutputsDefined rooted.state
  others : ∀ name ∈ namesOf rooted.state.ctes, some name ≠ rooted.rootCteName →
    name ∈ namesOf rooted.remaining
  opened : Open [] rooted.state
  root : ∀ root ∈ rooted.rootCteName, root ∈ namesOf rooted.state.ctes

section BaseJoins

variable {defined : List String}

theorem keyed_join_within {table : String} {key : Expr} (base : table ∈ baseTables)
    (within : ExprWithin defined key) :
    (innerJoin table (equals (.column table "id") key)).Within (Readable defined)
      (Nameable defined) :=
  have named : Nameable defined table := nameable_fixed (List.mem_append_left _ base)
  ⟨readable_base base, named, named, within⟩

theorem add_inner_joins_within {query : SelectCore} {keys : KeyRefs} (entity : EntityType)
    (joinedTables : JoinedTables) (within : CoreWithin defined query)
    (fileId : ExprWithin defined keys.fileId) (itemId : ExprWithin defined keys.itemId)
    (dataId : ∀ expr ∈ keys.dataId, ExprWithin defined expr) :
    CoreWithin defined (addInnerJoins query entity keys joinedTables) := by
  have missing (table : BaseTable) {join : Join}
      (inside : join.Within (Readable defined) (Nameable defined)) :
      ∀ added ∈ (if table ∈ joinedTables then [] else [join]),
        added.Within (Readable defined) (Nameable defined) := by
    split
    · exact nofun
    · exact List.forall_mem_singleton.mpr inside
  refine { within with joins := ?_ }
  unfold addInnerJoins
  simp only [List.forall_mem_append]
  refine ⟨⟨⟨within.joins, missing _ (keyed_join_within (by decide) itemId)⟩,
    missing _ (keyed_join_within (by decide) fileId)⟩, ?_⟩
  split
  · exact nofun
  · rename_i data isData
    have inside := dataId data isData
    simp only [List.forall_mem_append]
    refine ⟨⟨missing _ (keyed_join_within (by decide) inside),
      missing _ (keyed_join_within (by decide) (column_fixed (by decide)))⟩, ?_⟩
    split
    · exact missing _ (keyed_join_within (by decide) inside)
    · exact nofun

theorem start_query_within (state : QueryState) : CoreWithin defined (startQuery state) where
  source := readable_base (show "files" ∈ baseTables by decide)
  sourceName := nameable_fixed (show "files" ∈ baseTables ++ localNames by decide)
  items := by
    simp only [startQuery, List.forall_mem_append]
    refine ⟨?_, ?_⟩
    · simp (disch := decide) [Item.Within, nameable_fixed]
    · split <;> simp (disch := decide) [Item.Within, nameable_fixed]
  joins := by
    simp only [startQuery]
    split <;> simp (disch := decide) [entityJoin, innerJoin, Join.Within, Expr.Within, equals,
      readable_base, nameable_fixed]
  conditions := nothing_within
  groupBy := nothing_within
  having := nothing_within
  orderBy _ absent := absurd absent List.not_mem_nil

end BaseJoins

/-- The state with the CTE every tree starts from. -/
def beginState (mode : BuildMode) (entity : EntityType) : QueryState :=
  (createCte (initialState mode entity) "begin_cte"
    { core := startQuery (initialState mode entity) }).2

theorem begin_ready (mode : BuildMode) (entity : EntityType) : Ready ⟨"begin_cte"⟩ (beginState mode entity) where
  opened := {
    ordered := .snoc .nil List.not_mem_nil (single_within (start_query_within _))
    numbers := fun _ member => Or.inl (List.mem_singleton.mp member ▸ rfl) }
  outputs := ⟨nofun,
    nofun⟩
  defined := List.mem_cons_self

/-- The last definition is the only one a WITH clause leaves out by its name. -/
theorem filter_last {before : List CteDefinition} {last : CteDefinition} (ordered : Ordered (before ++ [last])) :
    (before ++ [last]).filter (fun cte => cte.name ≠ last.name) = before := by
  have fresh : last.name ∉ namesOf before := by
    have distinct := ordered.nodup
    rw [namesOf, List.map_append, List.nodup_append] at distinct
    exact fun member => distinct.2.2 _ member _ List.mem_cons_self rfl
  rw [List.filter_append, List.filter_eq_self.mpr, List.filter_singleton]
  · simp
  · intro cte member
    exact decide_eq_true fun same => fresh (same ▸ List.mem_map_of_mem member)

theorem Ordered.init {before : List CteDefinition} {last : CteDefinition}
    (ordered : Ordered (before ++ [last])) : Ordered before := by
  generalize whole : before ++ [last] = ctes at ordered
  cases ordered with
  | nil => simp at whole
  | snoc earlier _ _ => exact (List.append_inj' whole rfl).1 ▸ earlier

variable {state : QueryState}

/-- A root that is its own context stays; any other is the last definition, and
is left out. -/
theorem remaining_of_root {rootCte : CteRef} {root : FilterSelect}
    (opened : Open [] state) (defined : rootCte.name ∈ namesOf state.ctes)
    (registered : RootSelect rootCte state) (found : state.selects.lookup rootCte.name = some root) :
    let remaining := buildWithClause state (some rootCte.name) (some root.context.name)
    Ordered remaining ∧ CoreWithin (namesOf remaining) root.select ∧
      Nameable (namesOf remaining) root.context.name ∧
      ∀ name ∈ namesOf state.ctes, some name ≠ some rootCte.name → name ∈ namesOf remaining := by
  rcases registered root found with ⟨own, within⟩ | ⟨before, last, ctes, name, within, named⟩
  · have same : rootCte.name = root.context.name := by rw [own]
    simp only [buildWithClause, same, ne_eq, not_true_eq_false, if_false]
    exact ⟨opened.ordered, within, nameable_defined (same ▸ defined), fun name member _ => member⟩
  · have ordered := ctes ▸ opened.ordered
    have apart : rootCte.name ≠ root.context.name := by
      intro same
      rw [← same] at named
      have notFixed := opened.not_fixed defined
      rw [List.mem_append, not_or] at notFixed
      rcases named with base | alias_ | earlier
      · exact notFixed.1 base
      · exact notFixed.2 alias_
      · have distinct := ordered.nodup
        rw [namesOf, List.map_append, List.nodup_append] at distinct
        exact distinct.2.2 _ earlier _ List.mem_cons_self name.symm
    have left : buildWithClause state (some rootCte.name) (some root.context.name) = before := by
      simp only [buildWithClause]
      rw [if_pos apart, ctes, ← name]
      exact filter_last ordered
    rw [left]
    refine ⟨ordered.init, within, named, fun other member notRoot => ?_⟩
    rw [ctes, namesOf, List.map_append, List.mem_append] at member
    rcases member with earlier | isLast
    · exact earlier
    · exact absurd (congrArg some ((List.mem_singleton.mp isLast).trans name)) notRoot

theorem build_root_in_order {floats : FloatText} {mode : BuildMode} {entity : EntityType}
    {tree : QueryElement} {rooted : Rooted} (shape : tree.Preprocessed)
    (built : buildRoot floats mode entity (some tree) = .ok rooted) : rooted.InOrder := by
  unfold buildRoot at built
  obtain ⟨⟨rootCte, state⟩, processed, finished⟩ := bind_ok built
  have compiled := element_compiled floats tree shape (begin_ready mode entity) processed
  dsimp only at finished
  split at finished
  · cases finished
  · rename_i root found
    cases finished
    obtain ⟨ordered, within, named, others⟩ := remaining_of_root compiled.ready.opened
      compiled.ready.defined compiled.root found
    have dataId : ∀ expr ∈ (if state.itemDataQuery then some (root.context.column "data_id")
        else none), ExprWithin (namesOf (buildWithClause state (some rootCte.name)
          (some root.context.name))) expr := by
      intro expr isData
      split at isData
      · cases isData
        exact named
      · cases isData
    exact {
      ordered
      query := add_inner_joins_within entity _ within named named dataId
      fileId := named
      itemId := named
      dataId
      outputs := compiled.ready.outputs
      others
      opened := compiled.ready.opened
      root := fun _ isRoot => Option.some.inj isRoot ▸ compiled.ready.defined }

section Completing

variable {defined : List String} {rootCteName : Option String}

variable {query : SelectCore}

theorem add_joins_within {targets : List CteRef} {keys : KeyRefs}
    (lastCteName : Option String) (within : CoreWithin defined query)
    (fileId : ExprWithin defined keys.fileId) (dataId : ∀ expr ∈ keys.dataId, ExprWithin defined expr)
    (others : ∀ target ∈ targets, some target.name ≠ rootCteName → target.name ∈ defined) :
    CoreWithin defined (addJoins targets query keys rootCteName lastCteName) := by
  refine { within with joins := List.forall_mem_append.mpr ⟨within.joins, ?_⟩ }
  refine List.forall_mem_map.mpr fun target wanted => ?_
  obtain ⟨isTarget, apart⟩ := List.mem_filter.mp wanted
  have notRoot : some target.name ≠ rootCteName := by
    intro same
    simp [same] at apart
  have member := others target
    (List.mem_reverse.mp (mem_of_mem_distinct_by (List.mem_reverse.mp isTarget))) notRoot
  have named := nameable_defined member
  refine ⟨readable_defined member, named, ?_⟩
  split
  · rename_i data isData
    exact ⟨⟨named, fileId⟩, named, dataId data isData⟩
  · exact ⟨named, fileId⟩

theorem add_select_columns_within (select : List Column)
    (selected : List String) (within : CoreWithin defined query) :
    CoreWithin defined (addSelectColumns select query selected).1 :=
  with_items_within within (List.forall_mem_map.mpr fun column _ => column_expr_within column)

theorem extra_columns_fold_within {entries : List (ExtraColumn × Nat)} {extras : Extras}
    (within : CoreWithin defined extras.query)
    (others : ∀ entry ∈ entries, some entry.1.cte.name ≠ rootCteName →
      entry.1.cte.name ∈ defined) :
    CoreWithin defined (entries.foldl (addExtraColumn rootCteName) extras).query := by
  induction entries generalizing extras with
  | nil => exact within
  | cons entry rest ih =>
    refine ih ?_ fun later member => others later (List.mem_cons_of_mem _ member)
    unfold addExtraColumn
    dsimp only
    split
    · exact within
    · split
      · exact within
      · rename_i notRoot
        exact with_items_within within (List.forall_mem_singleton.mpr
          (nameable_defined (others entry List.mem_cons_self notRoot)))

theorem add_extra_columns_within (selected : List String) (within : CoreWithin defined query)
    (others : ∀ extra ∈ state.extraColumns, some extra.cte.name ≠ rootCteName →
      extra.cte.name ∈ defined) :
    CoreWithin defined (addExtraColumns query state rootCteName selected).query :=
  extra_columns_fold_within within fun entry member =>
    others entry.1 (List.fst_mem_of_mem_zipIdx member)

theorem args_within {exprs : List Expr} (within : ∀ expr ∈ exprs, ExprWithin defined expr) :
    argsWithin (Readable defined) (Nameable defined) exprs := by
  induction exprs with
  | nil => trivial
  | cons first rest ih =>
    exact ⟨within first List.mem_cons_self,
      ih fun expr member => within expr (List.mem_cons_of_mem _ member)⟩

theorem coalesced_within {columns : List Expr} (order : OrderDirection)
    (rrfs : Option (List Rrf)) (within : ∀ column ∈ columns, ExprWithin defined column) :
    ExprWithin defined (buildCoalescedExpr columns order rrfs) := by
  have ranked (fallback : Int) :
      ∀ expr ∈ columns.map (fun column => coalesceRank column fallback), ExprWithin defined expr :=
    List.forall_mem_map.mpr fun column member => ⟨within column member, trivial, trivial⟩
  unfold buildCoalescedExpr
  cases rrfs with
  | none => cases order <;> exact args_within (ranked _)
  | some rrfs =>
    have terms : ∀ term ∈ (columns.zip rrfs).map (fun ranked =>
        Expr.call "*" [.call "/" [.val (.real 1),
          .call "+" [.val (.int ranked.2.k), coalesceRank ranked.1 veryLargeNumber]],
          .val (.real ranked.2.weight)]), ExprWithin defined term := by
      refine List.forall_mem_map.mpr fun pair member => ?_
      have column := within pair.1 (List.of_mem_zip member).1
      exact ⟨⟨trivial, ⟨trivial, ⟨column, trivial, trivial⟩, trivial⟩, trivial⟩, trivial, trivial⟩
    have sum (left right : Expr) (leftWithin : ExprWithin defined left)
        (rightWithin : ExprWithin defined right) : ExprWithin defined (.call "+" [left, right]) :=
      ⟨leftWithin, rightWithin, trivial⟩
    dsimp only
    split
    · trivial
    · rename_i first rest isTerms
      rw [isTerms] at terms
      exact fold_within sum
        (terms first List.mem_cons_self) fun term member => terms term (List.mem_cons_of_mem _ member)

/-- The filters an order is built from. -/
def OrderItem.members : OrderItem → List OrderByFilter
  | .args _ => []
  | .filters group => group

theorem group_orders_members : ∀ (entries : List (OrderByFilter ⊕ OrderArgs)),
    ∀ item ∈ groupOrders entries, ∀ filter ∈ item.members, .inl filter ∈ entries
  | [], item, member, _, _ => absurd member List.not_mem_nil
  | .inr args :: rest, item, member, filter, inside => by
      rw [groupOrders] at member
      rcases List.mem_cons.mp member with rfl | later
      · cases inside
      · exact List.mem_cons_of_mem _ (group_orders_members rest item later filter inside)
  | .inl first :: rest, item, member, filter, inside => by
      have later := group_orders_members rest
      have own {group : List OrderByFilter} (grouped : .filters group ∈ groupOrders rest)
          (isMember : filter ∈ first :: group) : .inl filter ∈ .inl first :: rest := by
        rcases List.mem_cons.mp isMember with rfl | other
        · exact List.mem_cons_self
        · exact List.mem_cons_of_mem _ (later _ grouped filter other)
      unfold groupOrders at member
      split at member
      · rename_i grouped
        split at member
        · rcases List.mem_cons.mp member with rfl | other
          · exact own (grouped ▸ List.mem_cons_self) inside
          · exact List.mem_cons_of_mem _
              (later item (grouped ▸ List.mem_cons_of_mem _ other) filter inside)
        · rcases List.mem_cons.mp member with rfl | other
          · exact List.mem_singleton.mp inside ▸ List.mem_cons_self
          · exact List.mem_cons_of_mem _ (later item (grouped ▸ other) filter inside)
      · rcases List.mem_cons.mp member with rfl | other
        · exact List.mem_singleton.mp inside ▸ List.mem_cons_self
        · exact List.mem_cons_of_mem _ (later item other filter inside)

theorem combined_members {orderList : List OrderByFilter} {orderArgs : List OrderArgs}
    {item : OrderItem} (member : item ∈ combineOrderLists orderList orderArgs) :
    ∀ filter ∈ item.members, filter ∈ orderList := by
  intro filter inside
  have entry := group_orders_members _ item member filter inside
  simpa using (List.mergeSort_perm _ _).mem_iff.mp entry

/-- The query and its order terms are within bounds. -/
structure Orders.Within (defined : List String) (orders : Orders) : Prop where
  query : CoreWithin defined orders.query
  specs : ∀ spec ∈ orders.specs, spec.Within (Readable defined) (Nameable defined)

theorem rank_of_within {filter : OrderByFilter}
    (others : some filter.cte.name ≠ rootCteName → filter.cte.name ∈ defined) :
    ExprWithin defined (rankOf filter rootCteName) := by
  unfold rankOf
  split
  · trivial
  · rename_i notRoot
    exact nameable_defined (others notRoot)

theorem rank_items_within {group : List OrderByFilter} (index : Nat)
    (others : ∀ filter ∈ group, some filter.cte.name ≠ rootCteName → filter.cte.name ∈ defined) :
    ∀ item ∈ rankItems group index rootCteName, item.Within (Readable defined) (Nameable defined) :=
  List.forall_mem_map.mpr fun filter member =>
    rank_of_within (others filter (List.mem_filter.mp member).1)

variable {orders : Orders}

variable (selectConds : Bool)

theorem extended_within {items : List Item} {spec : OrderTerm}
    {columns : List OrderByColumn} (within : orders.Within defined)
    (itemsWithin : ∀ item ∈ items, item.Within (Readable defined) (Nameable defined))
    (specWithin : spec.Within (Readable defined) (Nameable defined)) : Orders.Within defined
      { query := if selectConds then { orders.query with items := orders.query.items ++ items }
          else orders.query
        specs := orders.specs ++ [spec]
        columns } where
  query := by
    dsimp only
    split
    · exact with_items_within within.query itemsWithin
    · exact within.query
  specs := List.forall_mem_append.mpr ⟨within.specs, List.forall_mem_singleton.mpr specWithin⟩

theorem order_by_expr_within (field : OrderByField) (seed : Int) :
    ExprWithin defined (getOrderByExpr field seed) := by
  cases field with
  | random => exact ⟨nameable_fixed (by decide), trivial, trivial⟩
  | column column => exact column_expr_within column

theorem apply_order_item_within {entry : OrderItem × Nat} (seed : Int) (within : orders.Within defined)
    (others : ∀ filter ∈ entry.1.members, some filter.cte.name ≠ rootCteName →
      filter.cte.name ∈ defined) :
    (applyOrderItem rootCteName selectConds seed orders entry).Within defined := by
  obtain ⟨item, index⟩ := entry
  have ranks {group : List OrderByFilter} (isGroup : item = .filters group) :
      ∀ expr ∈ group.map fun filter => rankOf filter rootCteName, ExprWithin defined expr := by
    subst isGroup
    exact List.forall_mem_map.mpr fun filter member => rank_of_within (others filter member)
  unfold applyOrderItem
  match item with
  | .args args =>
    exact extended_within selectConds within
      (List.forall_mem_singleton.mpr (order_by_expr_within _ seed)) (order_by_expr_within _ seed)
  | .filters [] => exact within
  | .filters [filter] =>
    exact extended_within selectConds within (rank_items_within index others)
      (rank_of_within (others filter List.mem_cons_self))
  | .filters (first :: second :: group) =>
    exact extended_within selectConds within (rank_items_within index others)
      (coalesced_within _ _ (ranks rfl))

theorem orders_fold_within {entries : List (OrderItem × Nat)} (seed : Int) (within : orders.Within defined)
    (others : ∀ entry ∈ entries, ∀ filter ∈ entry.1.members,
      some filter.cte.name ≠ rootCteName → filter.cte.name ∈ defined) :
    (entries.foldl (applyOrderItem rootCteName selectConds seed) orders).Within defined := by
  induction entries generalizing orders with
  | nil => exact within
  | cons entry rest ih =>
    exact ih (apply_order_item_within selectConds seed within (others entry List.mem_cons_self))
      fun later member => others later (List.mem_cons_of_mem _ member)

theorem build_order_by_within {orderList : List OrderByFilter} (orderArgs : List OrderArgs) (seed : Int)
    (within : CoreWithin defined query)
    (others : ∀ filter ∈ orderList, some filter.cte.name ≠ rootCteName →
      filter.cte.name ∈ defined) :
    (buildOrderBy query rootCteName selectConds orderList orderArgs seed).Within defined :=
  orders_fold_within selectConds seed ⟨within, nofun⟩
    fun _ member filter inside => others filter
      (combined_members (List.fst_mem_of_mem_zipIdx member) filter inside)

theorem alias_spec_within {source : String} (named : Nameable defined source) (column : OrderByColumn) :
    (orderSpecForAlias column source).Within (Readable defined) (Nameable defined) := by
  cases column with
  | label label order => exact named
  | coalesce labels order rrfs =>
    exact coalesced_within _ _ (List.forall_mem_map.mpr fun _ _ => named)

theorem partition_items_within (partitionBy : List Column) :
    ∀ item ∈ partitionItems partitionBy, item.Within (Readable defined) (Nameable defined) :=
  List.forall_mem_map.mpr fun column _ => column_expr_within column

theorem partition_query_within {selectCte : CteRef} (member : selectCte.name ∈ defined)
    (partitionBy : List Column) (orders : List OrderByColumn) :
    CoreWithin defined (partitionQuery partitionBy orders selectCte) :=
  have named := nameable_defined member
  { star_within member [] nothing_within with
    items := List.forall_mem_cons.mpr ⟨named, List.forall_mem_singleton.mpr
      ⟨List.forall_mem_map.mpr fun _ _ => named,
        List.forall_mem_map.mpr fun column _ => alias_spec_within named column⟩⟩ }

theorem first_of_partition_within {partitionCte : CteRef} (member : partitionCte.name ∈ defined)
    (selected : List String) (orders : List OrderByColumn) :
    CoreWithin defined (firstOfPartition selected orders partitionCte) where
  source := readable_defined member
  sourceName := nameable_defined member
  items := List.forall_mem_map.mpr fun _ _ => nameable_defined member
  joins _ absent := absurd absent List.not_mem_nil
  conditions := List.forall_mem_singleton.mpr ⟨nameable_defined member, trivial⟩
  groupBy := nothing_within
  having := nothing_within
  orderBy := List.forall_mem_map.mpr fun column _ => alias_spec_within (nameable_defined member) column

theorem partition_key_within (first : Column) (rest : List Column) :
    ExprWithin defined (partitionKey first rest) := by
  have fold : ∀ (columns : List Column) {start : Expr}, ExprWithin defined start →
      ExprWithin defined (columns.foldl (fun key column => .concat key column.expr) start) := by
    intro columns
    induction columns with
    | nil => exact fun within => within
    | cons column rest ih => exact fun within => ih ⟨within, column_expr_within column⟩
  exact fold rest (column_expr_within first)

end Completing

/-- The select a build ends in. -/
def BuiltQuery.core : BuiltQuery → SelectCore
  | .results query => query
  | .count query => query.inner

section Building

variable {rooted : Rooted}

theorem Rooted.InOrder.remaining_subset (_inOrder : rooted.InOrder) : rooted.remaining ⊆ rooted.state.ctes := by
  unfold Rooted.remaining buildWithClause
  split
  · split
    · exact List.filter_subset_self _
    · exact List.Subset.refl _
  · exact List.Subset.refl _

section

variable (inOrder : rooted.InOrder)

include inOrder

theorem finish_count_in_order (partitionBy : Option (List Column)) :
    Ordered (finishCount partitionBy rooted).withClause ∧
      CoreWithin (namesOf (finishCount partitionBy rooted).withClause)
        (finishCount partitionBy rooted).query.core := by
  refine ⟨inOrder.ordered, ?_⟩
  match partitionBy with
  | none => exact inOrder.query
  | some [] => exact inOrder.query
  | some (first :: rest) =>
    exact with_items_within inOrder.query
      (List.forall_mem_singleton.mpr (partition_key_within first rest))

theorem complete_results_within (input : PqlQuery) (partitioned : Bool) :
    (completeResults input partitioned rooted).1.Within (namesOf rooted.remaining) := by
  have orders : ∀ order ∈ rooted.state.orderList, some order.cte.name ≠ rooted.rootCteName →
      order.cte.name ∈ namesOf rooted.remaining :=
    fun order member => inOrder.others _ (inOrder.outputs.orders order member)
  have extras : ∀ extra ∈ rooted.state.extraColumns, some extra.cte.name ≠ rooted.rootCteName →
      extra.cte.name ∈ namesOf rooted.remaining :=
    fun extra member => inOrder.others _ (inOrder.outputs.extras extra member)
  have targets : ∀ target ∈ rooted.state.extraColumns.map ExtraColumn.cte ++
      rooted.state.orderList.map OrderByFilter.cte, some target.name ≠ rooted.rootCteName →
      target.name ∈ namesOf rooted.remaining :=
    List.forall_mem_append.mpr ⟨List.forall_mem_map.mpr extras, List.forall_mem_map.mpr orders⟩
  exact build_order_by_within partitioned _ _
    (add_extra_columns_within _ (add_select_columns_within _ []
      (add_joins_within _ inOrder.query inOrder.fileId inOrder.dataId targets)) extras) orders

theorem remaining_with {added : List CteDefinition}
    (wordless : ∀ cte ∈ added, DigitFree cte.name ∧ cte.name ≠ "begin_cte") :
    buildWithClause { rooted.state with ctes := rooted.state.ctes ++ added } rooted.rootCteName
      rooted.lastCteName = rooted.remaining ++ added := by
  have kept : ∀ root ∈ rooted.rootCteName, added.filter (fun cte => cte.name ≠ root) = added := by
    intro root isRoot
    refine List.filter_eq_self.mpr fun cte member => decide_eq_true fun same => ?_
    exact inOrder.opened.not_digit_free (wordless cte member).1 (wordless cte member).2
      (same ▸ inOrder.root root isRoot)
  unfold Rooted.remaining buildWithClause
  split
  · rename_i root last isRoot _
    split
    · rw [List.filter_append, kept root isRoot]
    · rfl
  · rfl

theorem partitioned_in_order (partitionBy : List Column)
    {query : SelectCore} (within : CoreWithin (namesOf rooted.remaining) query)
    (selected : List String) (orders : List OrderByColumn) :
    let applied := applyPartitionBy partitionBy query selected orders rooted.state
    let withClause := buildWithClause applied.2 rooted.rootCteName rooted.lastCteName
    Ordered withClause ∧ CoreWithin (namesOf withClause) applied.1 := by
  let first : CteDefinition :=
    { name := "select_cte"
      query := { core := { query with items := query.items ++ partitionItems partitionBy } } }
  let second : CteDefinition :=
    { name := "partition_cte"
      query := { core := partitionQuery partitionBy orders ⟨"select_cte"⟩ } }
  have remaining : buildWithClause { rooted.state with
      ctes := rooted.state.ctes ++ [first, second] } rooted.rootCteName rooted.lastCteName =
      rooted.remaining ++ [first] ++ [second] := by
    rw [remaining_with inOrder, List.append_assoc]
    · rfl
    · simp only [List.forall_mem_cons, first, second]
      decide
  have absent (word : String) (wordless : DigitFree word) (other : word ≠ "begin_cte") :
      word ∉ namesOf rooted.remaining := fun member =>
    inOrder.opened.not_digit_free wordless other
      ((List.map_subset _ inOrder.remaining_subset) member)
  have firstOrdered : Ordered (rooted.remaining ++ [first]) :=
    .snoc inOrder.ordered (absent "select_cte" (by decide) (by decide))
      (single_within (with_items_within within (partition_items_within partitionBy)))
  have secondOrdered : Ordered (rooted.remaining ++ [first] ++ [second]) := by
    refine .snoc firstOrdered ?_ (single_within (partition_query_within (by simp [first]) _ _))
    rw [namesOf, List.map_append, List.mem_append, not_or]
    exact ⟨absent "partition_cte" (by decide) (by decide), by simp [first, second]⟩
  have ctes : (applyPartitionBy partitionBy query selected orders rooted.state).2 =
      { rooted.state with ctes := rooted.state.ctes ++ [first, second] } := by
    simp [applyPartitionBy, createCte, first, second]
  dsimp only
  rw [ctes, remaining]
  exact ⟨secondOrdered, first_of_partition_within (by simp [second]) _ _⟩

theorem finish_results_in_order (input : PqlQuery)
    (partitionBy : Option (List Column)) : Ordered (finishResults input partitionBy rooted).withClause ∧
      CoreWithin (namesOf (finishResults input partitionBy rooted).withClause)
        (finishResults input partitionBy rooted).query.core := by
  have completed := complete_results_within inOrder input partitionBy.isSome
  cases partitionBy with
  | none =>
    have ordered : CoreWithin (namesOf rooted.remaining)
        { (completeResults input false rooted).1.query with
          orderBy := (completeResults input false rooted).1.specs } :=
      { completed.query with orderBy := completed.specs }
    exact ⟨inOrder.ordered, ordered⟩
  | some partitionBy => exact partitioned_in_order inOrder partitionBy completed.query _ _

end

/-- A name that is neither a table, an alias nor defined is not mentioned. -/
theorem core_avoids {defined : List String} {core : SelectCore} {name : String}
    (within : CoreWithin defined core) (notFixed : name ∉ baseTables ++ localNames)
    (absent : name ∉ defined) : core.Avoids name := by
  rw [List.mem_append, not_or] at notFixed
  refine SelectCore.within_mono ?_ ?_ within
  · rintro other readable rfl
    exact readable.elim notFixed.1 absent
  · rintro other nameable rfl
    exact nameable.elim notFixed.1 fun rest => rest.elim notFixed.2 absent

theorem ordered_avoids {ctes : List CteDefinition} {name : String} (ordered : Ordered ctes)
    (notFixed : name ∉ baseTables ++ localNames) (absent : name ∉ namesOf ctes) :
    ∀ cte ∈ ctes, cte.query.Avoids name := by
  intro cte member core isCore
  obtain ⟨before, after, split⟩ := List.append_of_mem member
  refine core_avoids (ordered.defined_before split core isCore) notFixed fun earlier => absent ?_
  rw [split, namesOf, List.map_append]
  exact List.mem_append_left _ earlier

theorem with_clause_omits {root last : String} (apart : root ≠ last) :
    root ∉ namesOf (buildWithClause state (some root) (some last)) := by
  unfold buildWithClause
  dsimp only
  rw [if_pos apart]
  intro member
  obtain ⟨cte, kept, same⟩ := List.mem_map.mp member
  exact of_decide_eq_true (List.mem_filter.mp kept).2 same

/-- What holds of the WITH clause and the final select of a build. -/
structure BuildInOrder (rooted : Rooted) (result : PqlBuilderResult) : Prop where
  distinct : (namesOf result.withClause).Nodup
  definedBefore : ∀ before cte after, result.withClause = before ++ cte :: after →
    cte.query.Within (Readable (namesOf before)) (Nameable (namesOf before))
  final : CoreWithin (namesOf result.withClause) result.query.core
  rootOmitted : ∀ root last, rooted.rootCteName = some root → rooted.lastCteName = some last →
    root ≠ last → root ∉ namesOf result.withClause ∧
      (∀ cte ∈ result.withClause, cte.query.Avoids root) ∧ result.query.core.Avoids root

theorem in_order_of_ordered (inOrder : rooted.InOrder) {result : PqlBuilderResult}
    (clause : ∃ state, result.withClause =
      buildWithClause state rooted.rootCteName rooted.lastCteName)
    (ordered : Ordered result.withClause) (final : CoreWithin (namesOf result.withClause) result.query.core) :
    BuildInOrder rooted result where
  distinct := ordered.nodup
  definedBefore _ _ _ split := ordered.defined_before split
  final := final
  rootOmitted := by
    intro root last isRoot isLast apart
    obtain ⟨state, same⟩ := clause
    have absent : root ∉ namesOf result.withClause := by
      rw [same, isRoot, isLast]
      exact with_clause_omits apart
    have notFixed := inOrder.opened.not_fixed (inOrder.root root isRoot)
    exact ⟨absent, ordered_avoids ordered notFixed absent, core_avoids final notFixed absent⟩

theorem build_in_order {floats : FloatText} {mode : BuildMode} {input : PqlQuery}
    {tree : QueryElement} {result : PqlBuilderResult} (shape : tree.Preprocessed)
    (rootBuilt : buildRoot floats mode input.entity (some tree) = .ok rooted)
    (built : buildQueryWithRoot floats input mode (some tree) = .ok result) : BuildInOrder rooted result := by
  have inOrder := build_root_in_order shape rootBuilt
  obtain ⟨_, _, rest⟩ := bind_ok built
  obtain ⟨same, sameBuilt, finished⟩ := bind_ok rest
  rw [rootBuilt] at sameBuilt
  cases sameBuilt
  cases mode with
  | count =>
    cases finished
    obtain ⟨ordered, final⟩ := finish_count_in_order inOrder input.partition
    exact in_order_of_ordered inOrder ⟨_, rfl⟩ ordered final
  | results =>
    cases finished
    obtain ⟨ordered, final⟩ := finish_results_in_order inOrder input input.partition
    exact in_order_of_ordered inOrder ⟨_, rfl⟩ ordered final

/-- The query of a request is preprocessed before it is built. -/
theorem query_in_order {outside : Outside} {floats : FloatText} {mode : BuildMode} {input : PqlQuery}
    {root tree : QueryElement} {result : PqlBuilderResult} (isQuery : input.query = some root)
    (kept : preprocessQuery outside root = .ok (some tree))
    (built : buildQuery outside floats input mode = .ok result) :
    ∃ rooted, buildRoot floats mode input.entity (some tree) = .ok rooted ∧ BuildInOrder rooted result := by
  unfold buildQuery at built
  rw [isQuery] at built
  obtain ⟨_, visited, later⟩ := bind_ok built
  cases kept.symm.trans visited
  obtain ⟨_, _, rest⟩ := bind_ok later
  obtain ⟨rooted, rootBuilt, _⟩ := bind_ok rest
  exact ⟨rooted, rootBuilt, build_in_order (preprocess_preprocessed outside root kept) rootBuilt later⟩

end Building

/-- One of its connectives has a single operand. -/
def nestedQuery : PqlQuery where
  query := some (.and_ [.filter (.processedBy ⟨"a"⟩), .or_ [.not_ (.filter (.processedBy ⟨"b"⟩))]])

theorem nested_query_in_order : ∃ result rooted,
    buildQuery ⟨id, fun _ => .ok []⟩ ⟨fun _ => ""⟩ nestedQuery .results = .ok result ∧ BuildInOrder rooted result := by
  obtain ⟨rooted, -, inOrder⟩ := @query_in_order ⟨id, fun _ => .ok []⟩
    ⟨fun _ => ""⟩ .results nestedQuery _ _ _ rfl rfl rfl
  exact ⟨_, rooted, rfl, inOrder⟩

end Panoptikon.Pql
