import Panoptikon.Pql.BooleanMeaning

/-!
# Leaf filters as restrictions

A filter without bounds wraps one select of its context. When every row of the
context gives at most one group, the filter's CTE lists some of the context's
rows, each once.
-/

namespace Panoptikon.Pql

open Foundation Foundation.Sql

section Wrapped

variable {dialect : Dialect} {tables : Tables} {state after : QueryState} {context cte : CteRef}
  {query : SelectCore} {cteName : String} {sort : SortableOptions} {joinedTables : JoinedTables}

/-- The new CTE is the last one defined, and the kind of query stays. -/
structure Wraps (dialect : Dialect) (tables : Tables) (state : QueryState) (query : SelectCore)
    (cte : CteRef) (after : QueryState) : Prop where
  rows : after.bound dialect tables cte.name = query.rows dialect (state.bound dialect tables)
  itemDataQuery : after.itemDataQuery = state.itemDataQuery

theorem wrap_unsorted_wraps (wrapped : wrapUnsorted state query context cteName joinedTables = (cte, after)) :
    Wraps dialect tables state query cte after := by
  cases wrapped
  exact ⟨bound_last ⟨cteName, { core := query }, false⟩ rfl, rfl⟩

theorem wrap_sorted_wraps (noBounds : sort.gt = none ∧ sort.lt = none)
    (wrapped : wrapSorted state query context cteName sort joinedTables = (cte, after)) :
    Wraps dialect tables state query cte after := by
  have unbounded : applySortBounds state query context cteName sort joinedTables =
      ((query, context, joinedTables), state) := by
    simp [applySortBounds, noBounds.1, noBounds.2]
  obtain ⟨own, done, ended⟩ : ∃ own done, wrapUnsorted state query context cteName joinedTables =
      (own, done) := ⟨_, _, rfl⟩
  have plain : Wraps dialect tables state query own done := wrap_unsorted_wraps ended
  rw [wrap_sorted_eq unbounded, ended] at wrapped
  cases wrapped
  dsimp only
  split
  · exact plain
  · exact ⟨plain.rows, plain.itemDataQuery⟩

/-- The keys of a CTE's rows. -/
def QueryState.keys (dialect : Dialect) (tables : Tables) (state : QueryState) (cte : CteRef) :
    List (List Value) :=
  (state.bound dialect tables cte.name).map (SelectCore.rowKey state.keyColumns)

/-- The rows of the CTE have distinct keys, and each is a key of the context. -/
structure KeysRestricted (dialect : Dialect) (tables : Tables) (context : CteRef)
    (state : QueryState) (cte : CteRef) (after : QueryState) : Prop where
  distinct : (after.keys dialect tables cte).Nodup
  inside : after.keys dialect tables cte ⊆ state.keys dialect tables context

theorem row_key_pick (state : QueryState) (row : Row) :
    SelectCore.rowKey state.keyColumns (row.pick state.stdColumns) =
      SelectCore.rowKey state.keyColumns row :=
  List.map_congr_left fun _ member => by rw [Row.get_pick (key_columns_std state member)]

theorem keys_of_rows (state : QueryState) (rows : List Row) :
    (rows.map (Row.pick state.stdColumns)).map (SelectCore.rowKey state.keyColumns) =
      rows.map (SelectCore.rowKey state.keyColumns) := by
  rw [List.map_map]
  exact List.map_congr_left fun row _ => row_key_pick state row

theorem begin_keys (dialect : Dialect) (database : Database) (mode : BuildMode) (entity : EntityType) :
    ((beginState mode entity).keys dialect database.tables ⟨"begin_cte"⟩).Nodup := by
  have distinct := (@begin_entities dialect database mode entity).distinct
  rw [beginEntities, QueryState.held, keys_of_rows] at distinct
  exact distinct

theorem Contexts.keys_nodup {database : Database} {mode : BuildMode} {entity : EntityType}
    (contexts : Contexts dialect database mode entity context state) :
    (state.keys dialect database.tables context).Nodup := by
  have is : Entities state (beginEntities dialect database mode entity) := entities_of_grown contexts.grown
  have distinct : ((state.held dialect database.tables context).map (SelectCore.rowKey state.keyColumns)).Nodup :=
    contexts.distinct.map_on fun left isLeft right isRight same =>
      List.inj_on_of_nodup_map is.distinct (contexts.inside isLeft) (contexts.inside isRight) same
  rwa [QueryState.held, keys_of_rows] at distinct

/-- A select that copies the standard columns of its context. -/
structure Restricting (context : CteRef) (state : QueryState) (query : SelectCore) : Prop where
  source : query.source = context.name
  sourceName : query.sourceName = context.name
  items : ∃ others, query.items = SelectCore.copies context.name state.stdColumns ++ others
  unordered : query.orderBy = []
  fresh : context.name ∉ query.joins.map Join.name

/-- What a local select of its context holds: the context's rows that contribute. -/
theorem held_of_local (restricting : Restricting context state query)
    (isLocal : query.Local dialect (state.bound dialect tables))
    (wraps : Wraps dialect tables state query cte after) :
    after.held dialect tables cte = ((state.bound dialect tables context.name).filter
      (query.contributes dialect (state.bound dialect tables))).map (Row.pick state.stdColumns) := by
  obtain ⟨others, items⟩ := restricting.items
  have columns : after.stdColumns = state.stdColumns := by
    simp only [QueryState.stdColumns, wraps.itemDataQuery]
  unfold QueryState.held
  rw [wraps.rows, columns, SelectCore.rows_of_local isLocal
    (restricting.sourceName ▸ restricting.fresh) restricting.unordered
    (restricting.sourceName ▸ items), restricting.source]

theorem keys_of_local (restricting : Restricting context state query)
    (isLocal : query.Local dialect (state.bound dialect tables))
    (distinct : (state.keys dialect tables context).Nodup) (wraps : Wraps dialect tables state query cte after) :
    KeysRestricted dialect tables context state cte after := by
  have columns : after.keyColumns = state.keyColumns ∧ after.stdColumns = state.stdColumns := by
    simp only [QueryState.keyColumns, QueryState.stdColumns, wraps.itemDataQuery, and_self]
  have held := held_of_local restricting isLocal wraps
  have keys : after.keys dialect tables cte = ((state.bound dialect tables context.name).filter
      (query.contributes dialect (state.bound dialect tables))).map
        (SelectCore.rowKey state.keyColumns) := by
    unfold QueryState.held at held
    rw [columns.2] at held
    unfold QueryState.keys
    rw [columns.1, ← keys_of_rows, held, keys_of_rows]
  rw [QueryState.keys] at distinct
  constructor
  · rw [keys]
    exact distinct.sublist (List.filter_sublist.map _)
  · rw [keys]
    exact (List.filter_sublist.map _).subset

end Wrapped

section Locality

variable {dialect : Dialect} {database : Database} {state after : QueryState}
  {context cte : CteRef} {query : SelectCore}

theorem context_not_base (ready : Ready context state) {name : String}
    (fixed : name ∈ baseTables ++ localNames) : context.name ≠ name :=
  fun same => ready.opened.not_fixed ready.defined (same ▸ fixed)

theorem local_of_std_group_by (restricting : Restricting context state query)
    (grouped : query.groupBy = getStdGroupBy context state)
    (distinct : (state.keys dialect database.tables context).Nodup) :
    query.Local dialect (state.bound dialect database.tables) := by
  refine SelectCore.local_of_group_by state.keyColumns
    (restricting.sourceName ▸ restricting.fresh) ?_ ?_ (restricting.source ▸ distinct)
  · rw [grouped, std_group_by, restricting.sourceName]
    rfl
  · unfold QueryState.keyColumns
    split <;> simp

theorem keyed_join_single (ready : Ready context state) {table name key : String}
    (keyed : IntegerKey (database.tables table) key) (base : table ∈ baseTables)
    {source column : String} (apart : source ≠ name) (scope : Scope) :
    ((innerJoinAs table name (equals (.column name key) (.column source column))).extend dialect
      (state.bound dialect database.tables) scope).length ≤ 1 := by
  have bound : state.bound dialect database.tables table = database.tables table :=
    bound_base ready.opened base
  refine Join.matched_at_most_one key (scope.get source column).canon ?_ ?_
  · rw [innerJoinAs, bound]
    exact keyed.canonical
  · intro row holds
    have same : compareValues .eq (row.get key) (scope.get source column) = some true := by
      simpa [Expr.holds, Expr.eval, equals, innerJoinAs, Scope.get, table_cons_of_ne apart]
        using holds
    exact (compare_values_eq_iff.mp same).2.2

theorem local_of_single_joins (ungrouped : query.groupBy = [])
    (single : ∀ join ∈ query.joins, ∀ scope,
      (join.extend dialect (state.bound dialect database.tables) scope).length ≤ 1) :
    query.Local dialect (state.bound dialect database.tables) := by
  refine SelectCore.local_of_at_most_one ungrouped fun row _ => ?_
  exact (List.length_filter_le _ _).trans (join_all_at_most_one _ single)

theorem std_restricting (ready : Ready context state) {joins : List Join}
    (fixed : ∀ join ∈ joins, join.name ∈ baseTables ++ localNames) (conditions groupBy having : List Expr) :
    Restricting context state
      { selectStdFromCte context state with joins, conditions, groupBy, having } where
  source := rfl
  sourceName := rfl
  items := ⟨[], (List.append_nil _).symm⟩
  unordered := rfl
  fresh := by
    intro member
    obtain ⟨join, isJoin, same⟩ := List.mem_map.mp member
    exact context_not_base ready (fixed join isJoin) same.symm

theorem Restricting.with_items (restricting : Restricting context state query) (added : List Item) :
    Restricting context state { query with items := query.items ++ added } :=
  { restricting with
    items := by
      obtain ⟨others, items⟩ := restricting.items
      exact ⟨others ++ added, by rw [items, List.append_assoc]⟩ }

theorem add_rank_column_items (query : SelectCore) (sort : SortableOptions) (rank : Expr) :
    ∃ added, addRankColumnExpr query sort rank = { query with items := query.items ++ added } := by
  unfold addRankColumnExpr
  split
  · exact ⟨_, rfl⟩
  · exact ⟨_, rfl⟩

theorem rank_restricts {sort : SortableOptions} {rank : Expr} (restricting : Restricting context state query)
    (isLocal : query.Local dialect (state.bound dialect database.tables)) : Restricting context state
        (if state.isCountQuery then query else addRankColumnExpr query sort rank) ∧
      (if state.isCountQuery then query else addRankColumnExpr query sort rank).Local dialect
        (state.bound dialect database.tables) := by
  obtain ⟨added, ranked⟩ := add_rank_column_items query sort rank
  split
  · exact ⟨restricting, isLocal⟩
  · rw [ranked]
    exact ⟨restricting.with_items added, isLocal⟩

end Locality

section Filters

variable {dialect : Dialect} {database : Database} {state after : QueryState}
  {context cte : CteRef}

theorem grouped_keys (ready : Ready context state)
    (distinct : (state.keys dialect database.tables context).Nodup) {joins : List Join}
    {conditions having : List Expr}
    (wraps : Wraps dialect database.tables state { selectStdFromCte context state with
      joins, conditions, groupBy := getStdGroupBy context state, having } cte after)
    (fixed : ∀ join ∈ joins, join.name ∈ baseTables ++ localNames) :
    KeysRestricted dialect database.tables context state cte after :=
  have restricting := std_restricting ready fixed conditions (getStdGroupBy context state) having
  keys_of_local restricting (local_of_std_group_by restricting rfl distinct) distinct wraps

theorem ranked_keys (distinct : (state.keys dialect database.tables context).Nodup)
    {query : SelectCore} {sort : SortableOptions} {rank : Expr}
    (wraps : Wraps dialect database.tables state
      (if state.isCountQuery then query else addRankColumnExpr query sort rank) cte after)
    (restricting : Restricting context state query)
    (isLocal : query.Local dialect (state.bound dialect database.tables)) :
    KeysRestricted dialect database.tables context state cte after :=
  have ranked := rank_restricts restricting isLocal
  keys_of_local ranked.1 ranked.2 distinct wraps

section

variable (ready : Ready context state)

include ready

theorem grouped_ranked_keys (distinct : (state.keys dialect database.tables context).Nodup) {joins : List Join}
    {conditions having : List Expr} {sort : SortableOptions} {rank : Expr}
    (wraps : Wraps dialect database.tables state
      (if state.isCountQuery then
        { selectStdFromCte context state with
          joins, conditions, groupBy := getStdGroupBy context state, having }
      else addRankColumnExpr { selectStdFromCte context state with
          joins, conditions, groupBy := getStdGroupBy context state, having } sort rank) cte after)
    (fixed : ∀ join ∈ joins, join.name ∈ baseTables ++ localNames) :
    KeysRestricted dialect database.tables context state cte after :=
  have restricting := std_restricting ready fixed conditions (getStdGroupBy context state) having
  ranked_keys distinct wraps restricting (local_of_std_group_by restricting rfl distinct)

theorem text_rows_single : ∀ join ∈
      [innerJoin "extracted_text"
        (equals (.column "extracted_text" "id") (context.column "data_id")),
       innerJoin "item_data" (equals (.column "item_data" "id") (context.column "data_id")),
       innerJoin "setters" (equals (.column "setters" "id") (.column "item_data" "setter_id"))],
      join.name ∈ baseTables ++ localNames ∧ ∀ scope,
        (join.extend dialect (state.bound dialect database.tables) scope).length ≤ 1 := by
  simp only [List.forall_mem_cons]
  exact ⟨⟨by simp [innerJoin, baseTables], keyed_join_single ready database.extractedText
      (by decide) (context_not_base ready (by decide))⟩,
    ⟨by simp [innerJoin, baseTables], keyed_join_single ready database.itemData (by decide)
      (context_not_base ready (by decide))⟩,
    ⟨by simp [innerJoin, baseTables], keyed_join_single ready database.setters (by decide)
      (by decide)⟩, nofun⟩

theorem Match.joins_single :
    ∀ join ∈ [innerJoin "items" (equals (.column "items" "id") (context.column "item_id")),
        innerJoin "files" (equals (.column "files" "id") (context.column "file_id"))] ++
      (if state.itemDataQuery then
        [innerJoin "extracted_text"
          (equals (.column "extracted_text" "id") (context.column "data_id")),
         innerJoin "item_data" (equals (.column "item_data" "id") (context.column "data_id")),
         innerJoin "setters" (equals (.column "setters" "id") (.column "item_data" "setter_id"))]
        else []),
      join.name ∈ baseTables ++ localNames ∧ ∀ scope,
        (join.extend dialect (state.bound dialect database.tables) scope).length ≤ 1 := by
  refine List.forall_mem_append.mpr ⟨?_, ?_⟩
  · simp only [List.forall_mem_cons]
    exact ⟨⟨by simp [innerJoin, baseTables], keyed_join_single ready database.items (by decide)
        (context_not_base ready (by decide))⟩,
      ⟨by simp [innerJoin, baseTables], keyed_join_single ready database.files (by decide)
        (context_not_base ready (by decide))⟩, nofun⟩
  · split
    · exact text_rows_single ready
    · exact nofun

theorem Match.keys_restricted {floats : FloatText} {filter : Match}
    (distinct : (state.keys dialect database.tables context).Nodup)
    (built : filter.build floats context state = .ok (cte, after)) :
    KeysRestricted dialect database.tables context state cte after := by
  obtain ⟨expression, _, wrapped⟩ := bind_ok built
  have single := @Match.joins_single dialect database state context ready
  exact keys_of_local
    (std_restricting ready (fun join member => (single join member).1) [expression] [] [])
    (local_of_single_joins rfl fun join member => (single join member).2) distinct
    (wrap_unsorted_wraps (Except.ok.inj wrapped))

theorem ProcessedBy.keys_restricted {filter : ProcessedBy}
    (distinct : (state.keys dialect database.tables context).Nodup)
    (built : filter.build context state = .ok (cte, after)) :
    KeysRestricted dialect database.tables context state cte after := by
  refine grouped_keys ready distinct (wrap_unsorted_wraps (Except.ok.inj built)) ?_
  simp [innerJoin, baseTables]

theorem HasUnprocessedData.keys_restricted {filter : HasUnprocessedData}
    (distinct : (state.keys dialect database.tables context).Nodup)
    (built : filter.build context state = .ok (cte, after)) :
    KeysRestricted dialect database.tables context state cte after := by
  refine grouped_keys ready distinct (wrap_unsorted_wraps (Except.ok.inj built)) ?_
  simp [innerJoinAs, localNames]

theorem InBookmarks.keys_restricted {filter : InBookmarks}
    (distinct : (state.keys dialect database.tables context).Nodup)
    (noBounds : filter.sort.gt = none ∧ filter.sort.lt = none)
    (built : filter.build context state = .ok (cte, after)) :
    KeysRestricted dialect database.tables context state cte after := by
  have restricted : KeysRestricted dialect database.tables context
      { state with usesUserData := true } cte after := by
    refine grouped_ranked_keys (ready_user_data ready) distinct
      (wrap_sorted_wraps noBounds (Except.ok.inj built)) ?_
    simp [innerJoin, baseTables]
  exact ⟨restricted.distinct, restricted.inside⟩

theorem MatchText.text_joins_single : ∀ join ∈
      [innerJoin "extracted_text"
        (equals (.column "extracted_text" "id") (context.column "data_id")),
       innerJoin "item_data" (equals (.column "item_data" "id") (context.column "data_id")),
       innerJoin "setters" (equals (.column "setters" "id") (.column "item_data" "setter_id")),
       innerJoin "extracted_text_fts"
        (equals (.column "extracted_text_fts" "rowid") (.column "extracted_text" "id"))],
      join.name ∈ baseTables ++ localNames ∧ ∀ scope,
        (join.extend dialect (state.bound dialect database.tables) scope).length ≤ 1 := by
  have rows := @text_rows_single dialect database state context ready
  simp only [List.forall_mem_cons] at rows ⊢
  exact ⟨rows.1, rows.2.1, rows.2.2.1, ⟨by simp [innerJoin, baseTables],
    keyed_join_single ready database.extractedTextFts (by decide) (by decide)⟩, nofun⟩

end

theorem MatchText.snippet_keys {filter : MatchText}
    (restricted : KeysRestricted dialect database.tables context state cte after) :
    KeysRestricted dialect database.tables context state cte (filter.registerSnippet after cte) := by
  unfold MatchText.registerSnippet
  split
  · exact restricted
  · exact ⟨restricted.distinct, restricted.inside⟩

theorem MatchText.keys_restricted {filter : MatchText} (ready : Ready context state)
    (distinct : (state.keys dialect database.tables context).Nodup)
    (noBounds : filter.sort.gt = none ∧ filter.sort.lt = none) (noSnippet : filter.snippetAlias = none)
    (built : filter.build context state = .ok (cte, after)) :
    KeysRestricted dialect database.tables context state cte after := by
  have unwanted : filter.wantSnippet state = false := by
    simp [MatchText.wantSnippet, noSnippet]
  unfold MatchText.build at built
  split at built
  rename_i own done ended
  cases built
  refine MatchText.snippet_keys ?_
  split at ended
  · unfold MatchText.buildText at ended
    rw [unwanted] at ended
    have single := @MatchText.text_joins_single dialect database state context ready
    exact ranked_keys distinct (wrap_sorted_wraps noBounds ended)
      (std_restricting ready (fun join member => (single join member).1) filter.criteria [] [])
      (local_of_single_joins rfl fun join member => (single join member).2)
  · unfold MatchText.buildFile at ended
    rw [unwanted] at ended
    refine grouped_ranked_keys ready distinct (wrap_sorted_wraps noBounds ended) ?_
    simp [MatchText.fileQuery, innerJoin, baseTables]

end Filters

end Panoptikon.Pql
