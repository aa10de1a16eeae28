import Panoptikon.Foundation.Sql.Local
import Panoptikon.Pql.Naming

/-!
# The database under a query

The tables a query reads, with the constraints of the schema (`migrations/index`)
that the compiled selects rely on, and what a CTE of a build holds over them.
-/

namespace Panoptikon.Pql

open Foundation Foundation.Sql

/-- `column INTEGER PRIMARY KEY`, and the row ids of a full-text index. -/
structure IntegerKey (rows : List Row) (column : String) : Prop where
  integers : ∀ row ∈ rows, ∃ number, row.get column = .int number
  distinct : (rows.map fun row => row.get column).Nodup

structure Database where
  tables : Tables
  files : IntegerKey (tables "files") "id"
  items : IntegerKey (tables "items") "id"
  itemData : IntegerKey (tables "item_data") "id"
  extractedText : IntegerKey (tables "extracted_text") "id"
  setters : IntegerKey (tables "setters") "id"
  extractedTextFts : IntegerKey (tables "extracted_text_fts") "rowid"
  filesPathFts : IntegerKey (tables "files_path_fts") "rowid"
  /-- `files.item_id` references `items.id`. -/
  fileItem : ∀ file ∈ tables "files", ∃ item ∈ tables "items",
    item.get "id" = file.get "item_id"

theorem IntegerKey.canonical {rows : List Row} {column : String} (key : IntegerKey rows column) :
    (rows.map fun row => (row.get column).canon).Nodup := by
  have same : (rows.map fun row => (row.get column).canon) = rows.map fun row => row.get column :=
    List.map_congr_left fun row member => by
      obtain ⟨number, isInt⟩ := key.integers row member
      rw [isInt, Value.canon_int]
  rw [same]
  exact key.distinct

/-- The columns that tell rows of a query apart. -/
def QueryState.keyColumns (state : QueryState) : List String :=
  if state.itemDataQuery then ["data_id", "file_id"] else ["file_id"]

theorem std_group_by (context : CteRef) (state : QueryState) :
    getStdGroupBy context state = state.keyColumns.map context.column := by
  unfold getStdGroupBy QueryState.keyColumns
  split <;> rfl

theorem key_columns_std (state : QueryState) : state.keyColumns ⊆ state.stdColumns := by
  unfold QueryState.keyColumns QueryState.stdColumns
  split <;> simp_all

section Held

variable (dialect : Dialect) (tables : Tables)

/-- The tables a select of the final query sees. -/
def QueryState.bound (state : QueryState) : Tables := bindCtes dialect tables state.ctes

/-- The rows of a CTE, in the columns every filter passes on. -/
def QueryState.held (state : QueryState) (cte : CteRef) : List Row :=
  (state.bound dialect tables cte.name).map (Row.pick state.stdColumns)

variable {dialect tables} {state after : QueryState} {cte : CteRef}

theorem held_grown (ordered : Ordered after.ctes) (grown : Grown state after)
    (defined : cte.name ∈ namesOf state.ctes) : after.held dialect tables cte = state.held dialect tables cte := by
  obtain ⟨more, split⟩ := grown.ctes
  have fresh : cte.name ∉ namesOf more := by
    have distinct := ordered.nodup
    rw [← split, namesOf, List.map_append, List.nodup_append] at distinct
    exact fun member => distinct.2.2 _ defined _ member rfl
  have columns : after.stdColumns = state.stdColumns := by
    simp only [QueryState.stdColumns, grown.itemDataQuery]
  unfold QueryState.held QueryState.bound
  rw [columns, ← split, bind_ctes_append, bind_ctes_of_not_mem fresh]

theorem bound_last {before : List CteDefinition} (last : CteDefinition) (ctes : state.ctes = before ++ [last]) :
    state.bound dialect tables last.name = last.query.rows dialect (bindCtes dialect tables before) := by
  rw [QueryState.bound, ctes, bind_ctes_append, bind_ctes_cons, bind_ctes_nil,
    Function.update_self]

theorem bound_base {used : List String} (opened : Open used state) {name : String}
    (base : name ∈ baseTables) : state.bound dialect tables name = tables name :=
  bind_ctes_of_not_mem fun member =>
    opened.not_fixed member (List.mem_append_left _ base)

end Held

end Panoptikon.Pql
