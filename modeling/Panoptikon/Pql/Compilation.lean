import Panoptikon.Pql.TagLeaf

/-!
# What a compiled tree means

A preprocessed tree over exact leaves compiles to a CTE that holds the rows of
`begin_cte` which satisfy it, in a WITH clause that is in order. The leaf of
`processed_by` is exact in every database.
-/

namespace Panoptikon.Pql

open Foundation Foundation.Sql

section Compiled

variable {dialect : Dialect} {database : Database} {floats : FloatText} {mode : BuildMode}
  {entity : EntityType}

theorem begin_contexts : Contexts dialect database mode entity ⟨"begin_cte"⟩ (beginState mode entity) where
  ready := begin_ready mode entity
  grown := Grown.refl _
  distinct := (begin_entities mode entity).nodup
  inside := List.Subset.refl _

/-- Ordinary boolean meaning, and names in order. -/
theorem compiled_tree (dialect : Dialect) (database : Database) (floats : FloatText)
    (mode : BuildMode) (input : PqlQuery) (tree : QueryElement) (meaning : Filter → Row → Prop)
    (shape : tree.Preprocessed)
    (exact_ : ∀ filter ∈ tree.leaves,
      LeafExact dialect database floats mode input.entity (meaning filter) filter) :
    (∀ cte after, processQueryElement floats tree ⟨"begin_cte"⟩ (beginState mode input.entity) =
        .ok (cte, after) →
      Restricts (after.held dialect database.tables cte)
        (beginEntities dialect database mode input.entity) (tree.Satisfied meaning)) ∧
    ∀ rooted result, buildRoot floats mode input.entity (some tree) = .ok rooted →
      buildQueryWithRoot floats input mode (some tree) = .ok result →
      BuildInOrder rooted result :=
  ⟨fun _ _ processed => element_restricts tree shape exact_ begin_contexts processed,
    fun _ _ rootBuilt built => build_in_order shape rootBuilt built⟩

end Compiled

namespace ProcessedBy

/-- Some extracted data of the row, or of its item, comes from the setter. -/
def Meaning (tables : Tables) (entity : EntityType) (filter : ProcessedBy) (row : Row) : Prop :=
  let link := if entity = .text then ("source_id", "data_id") else ("item_id", "item_id")
  ∃ data ∈ tables "item_data", compareValues .eq (data.get link.1) (row.get link.2) = some true ∧
    ∃ setter ∈ tables "setters",
      compareValues .eq (setter.get "id") (data.get "setter_id") = some true ∧
        compareValues .eq (setter.get "name") (.text filter.processedBy) = some true

section

variable {dialect : Dialect} {database : Database} {mode : BuildMode} {entity : EntityType}
  {context cte : CteRef} {state after : QueryState} {filter : ProcessedBy}

theorem meaning_pick (grown : Grown (beginState mode entity) state) (tables : Tables) (row : Row) :
    filter.Meaning tables entity (row.pick state.stdColumns) ↔
      filter.Meaning tables entity row := by
  have link : (if entity = .text then ("source_id", "data_id") else ("item_id", "item_id")).2 ∈
      state.stdColumns := by
    rw [QueryState.stdColumns, grown.itemDataQuery]
    cases entity <;> simp [beginState, createCte, initialState]
  unfold Meaning
  dsimp only
  rw [Row.get_pick link]

/-- The select of the filter. -/
def query (filter : ProcessedBy) (context : CteRef) (state : QueryState) : SelectCore :=
  { selectStdFromCte context state with
    joins :=
      [innerJoin "item_data" (if state.itemDataQuery then
          equals (.column "item_data" "source_id") (context.column "data_id")
        else equals (.column "item_data" "item_id") (context.column "item_id")),
       innerJoin "setters" (equals (.column "setters" "id") (.column "item_data" "setter_id"))]
    conditions := [equals (.column "setters" "name") (.val (.text filter.processedBy))]
    groupBy := getStdGroupBy context state }

theorem contributes_iff (ready : Ready context state) (grown : Grown (beginState mode entity) state) (row : Row) :
    (filter.query context state).contributes dialect (state.bound dialect database.tables) row =
      true ↔ filter.Meaning database.tables entity row := by
  have data : state.bound dialect database.tables "item_data" = database.tables "item_data" :=
    bound_base ready.opened (by decide)
  have setters : state.bound dialect database.tables "setters" = database.tables "setters" :=
    bound_base ready.opened (by decide)
  have apart : context.name ≠ "item_data" := context_not_base ready (by decide)
  have kind : state.itemDataQuery = decide (entity = .text) := grown.itemDataQuery
  have joinOn : (if state.itemDataQuery then
        equals (.column "item_data" "source_id") (context.column "data_id")
      else equals (.column "item_data" "item_id") (context.column "item_id")) =
      (let link := if entity = .text then ("source_id", "data_id") else ("item_id", "item_id")
      equals (.column "item_data" link.1) (context.column link.2)) := by
    rw [kind]
    cases entity <;> rfl
  unfold query Meaning
  rw [joinOn]
  simp [SelectCore.contributes, SelectCore.scopesOf, selectStdFromCte, joinAll, Join.extend,
    Join.matched, innerJoin, List.filter_map, Function.comp_def, Expr.holds, Expr.eval, equals,
    CteRef.column, Scope.get, table_cons_of_ne apart,
    table_cons_of_ne (show "item_data" ≠ "setters" by decide), data, setters]

/-- In every context the filter holds the rows its setter has processed. -/
theorem leaf_exact (dialect : Dialect) (database : Database) (floats : FloatText) (mode : BuildMode)
    (entity : EntityType) (filter : ProcessedBy) :
    LeafExact dialect database floats mode entity (filter.Meaning database.tables entity)
      (.processedBy filter) := by
  intro context state cte after contexts built
  have ready := contexts.ready
  have keys := contexts.keys_nodup
  have fixed : ∀ join ∈ (filter.query context state).joins, join.name ∈ baseTables ++ localNames := by
    simp [query, innerJoin, baseTables]
  have restricting := std_restricting ready fixed (filter.query context state).conditions
    (getStdGroupBy context state) []
  have wraps : Wraps dialect database.tables state (filter.query context state) cte after :=
    wrap_unsorted_wraps (Except.ok.inj built)
  have held := held_of_local restricting (local_of_std_group_by restricting rfl keys) wraps
  have picked : ∀ row, (filter.query context state).contributes dialect
      (state.bound dialect database.tables) (row.pick state.stdColumns) =
        (filter.query context state).contributes dialect (state.bound dialect database.tables) row :=
    fun row => Bool.eq_iff_iff.mpr (by
      rw [contributes_iff ready contexts.grown, contributes_iff ready contexts.grown,
        meaning_pick contexts.grown])
  have kept : after.held dialect database.tables cte =
      (state.held dialect database.tables context).filter
        ((filter.query context state).contributes dialect (state.bound dialect database.tables)) := by
    rw [held, QueryState.held, List.filter_map]
    exact congrArg _ (List.filter_congr fun row _ => (picked row).symm)
  rw [kept]
  refine ⟨contexts.distinct.filter _, fun row => ?_⟩
  rw [List.mem_filter, contributes_iff ready contexts.grown]

end

end ProcessedBy

def taggedTree : QueryElement :=
  .and_ [.not_ (.filter (.processedBy ⟨"nobody"⟩)), .filter (.processedBy ⟨"tagger"⟩)]

theorem compiled_tree_tagged : ∃ cte after,
    processQueryElement ⟨fun _ => ""⟩ taggedTree ⟨"begin_cte"⟩ (beginState .results .file) =
      .ok (cte, after) ∧
    Restricts (after.held (.bare true) taggedDatabase.tables cte)
      (beginEntities (.bare true) taggedDatabase .results .file)
      (taggedTree.Satisfied fun
        | .processedBy filter => filter.Meaning taggedDatabase.tables .file
        | _ => fun _ => False) := by
  obtain ⟨cte, after, processed⟩ : ∃ cte after, processQueryElement ⟨fun _ => ""⟩ taggedTree
      ⟨"begin_cte"⟩ (beginState .results .file) = .ok (cte, after) := ⟨_, _, rfl⟩
  refine ⟨cte, after, processed, (compiled_tree (.bare true) taggedDatabase ⟨fun _ => ""⟩ .results {}
    taggedTree _ ?_ ?_).1 cte after processed⟩
  · exact ⟨by decide, trivial, trivial, trivial⟩
  · intro filter member
    rcases List.mem_pair.mp member with rfl | rfl
    · exact ProcessedBy.leaf_exact _ _ _ _ _ _
    · exact ProcessedBy.leaf_exact _ _ _ _ _ _

end Panoptikon.Pql
