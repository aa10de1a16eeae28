import Panoptikon.Foundation.Classes
import Panoptikon.Foundation.Sql.Local
import Panoptikon.Foundation.Sql.Windows
import Panoptikon.Pql.Builder

/-!
# Partitioned queries

A partitioned count tells rows apart by one text put together from the partition
columns, a partitioned result by the columns themselves. The result has one row for
every combination of values, and the count misses those with a NULL and runs
together those that spell the same text.
-/

namespace Panoptikon.Pql

open Foundation Foundation.Sql

variable {dialect : Dialect} {tables : Tables}

theorem get_append_of_lookup {row other : Row} {column : String} (lacks : row.lookup column = none) :
    Row.get (row ++ other) column = other.get column := by
  rw [Row.get, Row.get, List.lookup_append, lacks, Option.none_or]

/-- No row of the select has a column of the name. -/
def Lacks (dialect : Dialect) (tables : Tables) (query : SelectCore) (column : String) : Prop :=
  ∀ all index group, (query.output dialect tables all index group).lookup column = none

variable (query : SelectCore)

theorem rows_perm : (query.rows dialect tables).Perm ((query.produced dialect tables).map Prod.snd) := by
  rw [SelectCore.rows]
  refine List.Perm.map _ ?_
  split
  · exact List.Perm.refl _
  · exact List.mergeSort_perm _ _

theorem rows_length : (query.rows dialect tables).length = (query.survivors dialect tables).length := by
  rw [(rows_perm query).length_eq, SelectCore.produced, List.length_map, List.length_map, List.length_zipIdx]

/-- What is read of the rows of a select with further items is what the items give its groups. -/
theorem read_rows {Result : Type} (items : List Item) (read : Row → Result) (value : List Scope → Result)
    (reads : ∀ all index group,
      read (query.output dialect tables all index group ++
        items.flatMap (Item.columns dialect tables all index group)) = value group) :
    ((SelectCore.rows dialect tables { query with items := query.items ++ items }).map read).Perm
      ((query.survivors dialect tables).map value) := by
  refine ((rows_perm _).map read).trans ?_
  rw [SelectCore.produced, List.map_map, List.map_map]
  have same : ∀ entry : List Scope × Nat,
      read (SelectCore.output dialect tables { query with items := query.items ++ items }
        (query.survivors dialect tables) entry.2 entry.1) = value entry.1 := by
    intro entry
    rw [← reads (query.survivors dialect tables) entry.2 entry.1, SelectCore.output, SelectCore.output,
      List.flatMap_append]
  refine (List.Perm.of_eq ?_)
  calc
    _ = (query.survivors dialect tables).zipIdx.map (fun entry => value entry.1) :=
        List.map_congr_left fun entry _ => same entry
    _ = _ := map_of_zipIdx value _

/-- The values of the partition columns in a row of the query. -/
def partitionValues (dialect : Dialect) (tables : Tables) (partitionBy : List Column) (group : List Scope) :
    List Value :=
  partitionBy.map fun column => SelectCore.evalGroup dialect tables column.expr group

/-- The texts of the values after one another. A single value is kept as it is. -/
def joinedValue (dialect : Dialect) : List Value → Value
  | [] => .null
  | first :: rest => rest.foldl (fun joined value =>
      match dialect.textOf joined, dialect.textOf value with
      | some left, some right => .text (left ++ right)
      | _, _ => .null) first

theorem eval_partition_key (first : Column) (rest : List Column) (group : List Scope) :
    SelectCore.evalGroup dialect tables (partitionKey first rest) group =
      joinedValue dialect (partitionValues dialect tables (first :: rest) group) := by
  have step : ∀ (rest : List Column) (key : Expr),
      SelectCore.evalGroup dialect tables (rest.foldl (fun key column => .concat key column.expr) key) group =
        (partitionValues dialect tables rest group).foldl (fun joined value =>
          match dialect.textOf joined, dialect.textOf value with
          | some left, some right => .text (left ++ right)
          | _, _ => .null) (SelectCore.evalGroup dialect tables key group) := by
    intro rest
    induction rest with
    | nil => exact fun _ => rfl
    | cons column rest ih =>
      intro key
      rw [List.foldl_cons, ih, partitionValues, partitionValues, List.map_cons, List.foldl_cons]
      rfl
  exact step rest first.expr

theorem text_of_none {value : Value} : dialect.textOf value = none ↔ value = .null := by
  cases value <;> simp [Dialect.textOf]

theorem joined_eq_null {first : Value} {rest : List Value} :
    joinedValue dialect (first :: rest) = .null ↔ ∃ value ∈ first :: rest, value = .null := by
  rw [joinedValue]
  induction rest generalizing first with
  | nil =>
    exact ⟨fun null => ⟨first, List.mem_cons_self, null⟩,
      fun ⟨_, member, null⟩ => by rwa [List.mem_singleton.mp member] at null⟩
  | cons value rest ih =>
    rw [List.foldl_cons, ih]
    simp only [List.mem_cons, exists_eq_or_imp]
    rw [← or_assoc]
    refine or_congr_left ?_
    rw [← @text_of_none dialect first,
      ← @text_of_none dialect value]
    cases dialect.textOf first <;> cases dialect.textOf value <;> simp

theorem distinct_count_perm {first second : List Value} (same : first.Perm second) :
    distinctCount first = distinctCount second :=
  (((same.filter _).map _).dedup).length_eq

theorem partition_total (first : Column) (rest : List Column) (lacks : Lacks dialect tables query "partition_key") :
    (countPartitions query first rest).total dialect tables =
      distinctCount ((query.survivors dialect tables).map fun group =>
        joinedValue dialect (partitionValues dialect tables (first :: rest) group)) := by
  refine distinct_count_perm (read_rows query _ (fun row => row.get "partition_key") _ ?_)
  intro all index group
  rw [get_append_of_lookup (lacks all index group), List.flatMap_singleton]
  simp only [Item.columns, Row.get, List.lookup_cons_self, Option.getD_some, eval_partition_key]

/-- The rows of a partitioned result, under the WITH clause that it completes. -/
def partitionedRows (dialect : Dialect) (base : Tables) (partitionBy : List Column) (query : SelectCore)
    (selected : List String) (orders : List OrderByColumn) (state : QueryState) : List Row :=
  let (query, state) := applyPartitionBy partitionBy query selected orders state
  query.rows dialect (bindCtes dialect base state.ctes)

theorem partition_label_injective : Function.Injective partitionLabel := by
  have names : Function.Injective Column.name := by
    let columns : List Column := [.fileId, .sha256, .path, .filename, .lastModified, .itemId, .md5, .type, .size,
      .width, .height, .duration, .timeAdded, .audioTracks, .videoTracks, .subtitleTracks, .blurhash, .outroKind,
      .contentEndMs, .videoCodec, .audioCodec, .dataId, .language, .languageConfidence, .text, .confidence,
      .textLength, .jobId, .setterId, .setterName, .dataIndex, .sourceId]
    have found : ∀ column : Column, columns.find? (fun other => other.name = column.name) = some column := by
      intro column
      cases column <;> decide
    intro left right same
    have leftFound := found left
    rw [same, found right] at leftFound
    exact (Option.some.inj leftFound).symm
  intro left right same
  exact names (String.append_right_inj "part_" |>.mp same)

variable (partitionBy : List Column)

theorem lookup_partition_items (all : List (List Scope)) (index : Nat)
    (group : List Scope) {column : Column} (member : column ∈ partitionBy) :
    ((partitionItems partitionBy).flatMap (Item.columns dialect tables all index group)).lookup
        (partitionLabel column) = some (SelectCore.evalGroup dialect tables column.expr group) := by
  induction partitionBy with
  | nil => cases member
  | cons first rest ih =>
    rw [partitionItems, List.map_cons, List.flatMap_cons]
    by_cases same : column = first
    · subst same
      rw [List.lookup_append, Item.columns, List.lookup_cons_self, Option.some_or]
    · have later : column ∈ rest := (List.mem_cons.mp member).resolve_left same
      have apart : partitionLabel column ≠ partitionLabel first :=
        fun labels => same (partition_label_injective labels)
      rw [List.lookup_append, Item.columns, List.lookup_cons, beq_false_of_ne apart]
      exact ih later

theorem partition_items_lack_rownum (all : List (List Scope)) (index : Nat) (group : List Scope) :
    ((partitionItems partitionBy).flatMap (Item.columns dialect tables all index group)).lookup
      "partition_rownum" = none := by
  induction partitionBy with
  | nil => rfl
  | cons first rest ih =>
    have apart : "partition_rownum" ≠ partitionLabel first := by cases first <;> decide
    rw [partitionItems, List.map_cons, List.flatMap_cons, List.lookup_append, Item.columns, List.lookup_cons,
      beq_false_of_ne apart]
    exact ih

/-- A select from one source, without groups, has a group for every row that meets its
conditions. -/
theorem survivors_of_source (joins : query.joins = []) (ungrouped : query.groupBy = [])
    (unfiltered : query.having = []) : query.survivors dialect tables =
      ((tables query.source).filter fun row =>
        query.conditions.all fun condition => condition.holds dialect tables [(query.sourceName, row)]).map
          fun row => [[(query.sourceName, row)]] := by
  have scopes : query.scopes dialect tables =
      ((tables query.source).filter fun row =>
        query.conditions.all fun condition => condition.holds dialect tables [(query.sourceName, row)]).map
          fun row => [(query.sourceName, row)] := by
    rw [SelectCore.scopes]
    induction tables query.source with
    | nil => rfl
    | cons row rows ih =>
      rw [List.flatMap_cons, ih, SelectCore.scopesOf, joins, joinAll, List.filter_cons, List.filter_nil,
        List.filter_cons]
      split <;> rfl
  simp only [SelectCore.survivors, SelectCore.groups, ungrouped, unfiltered, scopes, List.isEmpty_nil, if_true,
    List.map_map, List.all_nil, List.filter_true]
  rfl

/-- The rows with their places: each of the source's rows, and behind it its place. -/
theorem partition_rows (orders : List OrderByColumn) (cte : CteRef) :
    (partitionQuery partitionBy orders cte).rows dialect tables =
      ((tables cte.name).map fun row => [[(cte.name, row)]]).zipIdx.map fun entry =>
        (SelectCore.representative dialect entry.1).table cte.name ++
          [("partition_rownum", .int (windowPlace dialect tables
            (partitionBy.map fun column => cte.column (partitionLabel column))
            (orders.map fun order => orderSpecForAlias order cte.name)
            ((tables cte.name).map fun row => [[(cte.name, row)]]) entry.2 entry.1))] := by
  have all : (partitionQuery partitionBy orders cte).survivors dialect tables =
      (tables cte.name).map fun row => [[(cte.name, row)]] := by
    rw [survivors_of_source _ rfl rfl rfl]
    simp [partitionQuery]
  rw [SelectCore.rows_unordered rfl, all]
  rfl

/-- As many rows are first of their partition as there are combinations of the labelled values. -/
theorem first_rows_length (orders : List OrderByColumn) (cte : CteRef)
    (fresh : ∀ row ∈ tables cte.name, row.lookup "partition_rownum" = none) :
    (((partitionQuery partitionBy orders cte).rows dialect tables).filter fun row =>
        decide ((row.get "partition_rownum").canon = .int 1)).length =
      ((tables cte.name).map fun row =>
        partitionBy.map fun column => (row.get (partitionLabel column)).canon).dedup.length := by
  rw [partition_rows, List.filter_map, List.length_map]
  have placed := window_firsts dialect tables (partitionBy.map fun column => cte.column (partitionLabel column))
    (orders.map fun order => orderSpecForAlias order cte.name)
    ((tables cte.name).map fun row => [[(cte.name, row)]])
  rw [List.map_map] at placed
  have read : ∀ row : Row, (partitionBy.map fun column => cte.column (partitionLabel column)).map (fun expr =>
      (SelectCore.evalGroup dialect tables expr [[(cte.name, row)]]).canon) =
        partitionBy.map fun column => (row.get (partitionLabel column)).canon := by
    intro row
    rw [List.map_map]
    refine List.map_congr_left fun column _ => ?_
    simp [SelectCore.evalGroup, SelectCore.representative, CteRef.column, Expr.eval, Scope.get, Scope.table,
      Nat.mod_one]
  simp only [Function.comp_def, read] at placed
  rw [← placed]
  refine congrArg List.length (List.filter_congr fun entry member => ?_)
  have isRow := List.fst_mem_of_mem_zipIdx member
  rw [List.mem_map] at isRow
  obtain ⟨row, stored, same⟩ := isRow
  have table : (SelectCore.representative dialect entry.1).table cte.name = row := by
    rw [← same]
    simp [SelectCore.representative, Scope.table, Nat.mod_one]
  simp only [Function.comp_def, table]
  rw [get_append_of_lookup (fresh row stored)]
  simp only [Row.get, List.lookup_cons_self, Option.getD_some, Value.canon_int, Value.int.injEq, Nat.cast_eq_one]

theorem outer_length (selected : List String) (orders : List OrderByColumn) (cte : CteRef) :
    ((firstOfPartition selected orders cte).rows dialect tables).length =
      ((tables cte.name).filter fun row =>
        decide ((row.get "partition_rownum").canon = .int 1)).length := by
  rw [rows_length, survivors_of_source _ rfl rfl rfl, List.length_map]
  refine congrArg List.length (List.filter_congr fun row _ => ?_)
  have read : (cte.column "partition_rownum").eval dialect tables [[(cte.name, row)]] [(cte.name, row)] =
      row.get "partition_rownum" := by
    simp [CteRef.column, Expr.eval, Scope.get, Scope.table]
  have one : (.val (.int 1) : Expr).eval dialect tables [[(cte.name, row)]] [(cte.name, row)] = .int 1 := by
    rw [Expr.eval]
  simp only [firstOfPartition, List.all_cons, List.all_nil, Bool.and_true, Expr.holds, equals, Expr.eval,
    Value.truth_of_truth]
  rw [read]
  rw [decide_eq_decide, compare_values_eq_iff, Value.canon_int]
  constructor
  · exact fun same => same.2.2
  · intro same
    refine ⟨fun null => ?_, by decide, same⟩
    rw [null] at same
    cases same

/-- A partitioned result has one row for every combination of values, whatever is selected. -/
theorem partitioned_length (base : Tables) (partitionBy : List Column) (query : SelectCore)
    (selected : List String) (orders : List OrderByColumn) (state : QueryState)
    (rownum : Lacks dialect (bindCtes dialect base state.ctes) query "partition_rownum")
    (labels : ∀ column ∈ partitionBy,
      Lacks dialect (bindCtes dialect base state.ctes) query (partitionLabel column)) :
    (partitionedRows dialect base partitionBy query selected orders state).length =
      ((query.survivors dialect (bindCtes dialect base state.ctes)).map fun group =>
        (partitionValues dialect (bindCtes dialect base state.ctes) partitionBy group).map Value.canon).dedup.length := by
  let completed : SelectCore := { query with items := query.items ++ partitionItems partitionBy }
  have bound : bindCtes dialect base (state.ctes ++ [{ name := "select_cte", query := { core := completed } }] ++
      [{ name := "partition_cte", query := { core := partitionQuery partitionBy orders ⟨"select_cte"⟩ } }]) =
      Function.update
        (Function.update (bindCtes dialect base state.ctes) "select_cte"
          (completed.rows dialect (bindCtes dialect base state.ctes)))
        "partition_cte" ((partitionQuery partitionBy orders ⟨"select_cte"⟩).rows dialect
          (Function.update (bindCtes dialect base state.ctes) "select_cte"
            (completed.rows dialect (bindCtes dialect base state.ctes)))) := by
    rw [bind_ctes_append, bind_ctes_append]
    rfl
  rw [partitionedRows, applyPartitionBy]
  simp only [createCte]
  rw [outer_length, bound, Function.update_self, first_rows_length, Function.update_self]
  · refine List.Perm.length_eq (List.Perm.dedup (read_rows query _ _ _ fun all index group => ?_))
    rw [partitionValues, List.map_map]
    refine List.map_congr_left fun column member => ?_
    rw [get_append_of_lookup (labels column member all index group), Row.get,
      lookup_partition_items partitionBy all index group member]
    rfl
  · intro row stored
    rw [Function.update_self] at stored
    obtain ⟨⟨group, output⟩, produced, rfl⟩ := List.mem_map.mp ((rows_perm completed).mem_iff.mp stored)
    rw [SelectCore.produced, List.mem_map] at produced
    obtain ⟨⟨group, index⟩, _, same⟩ := produced
    cases same
    rw [SelectCore.output]
    simp only [completed]
    rw [List.flatMap_append, List.lookup_append, partition_items_lack_rownum, Option.or_none]
    exact rownum _ _ _

theorem distinct_count_eq (values : List Value) :
    distinctCount values = ((values.map Value.canon).filter (· ≠ .null)).dedup.length := by
  rw [distinctCount, List.filter_map]
  refine congrArg (fun kept : List Value => (kept.map Value.canon).dedup.length)
    (List.filter_congr fun value _ => ?_)
  simp [Value.canon_eq_null]

/-- The rows of two queries have the same combinations of values. -/
def SameRows (dialect : Dialect) (tables : Tables) (partitionBy : List Column) (counted listed : SelectCore) :
    Prop :=
  ∀ values, (∃ group ∈ counted.survivors dialect tables,
      partitionValues dialect tables partitionBy group = values) ↔
    ∃ group ∈ listed.survivors dialect tables, partitionValues dialect tables partitionBy group = values

/-- In one column no two stored values compare equal without being the same, as the column's
affinity has it. -/
def Affine (dialect : Dialect) (tables : Tables) (partitionBy : List Column) (query : SelectCore) : Prop :=
  ∀ left ∈ query.survivors dialect tables, ∀ right ∈ query.survivors dialect tables,
    (partitionValues dialect tables partitionBy left).map Value.canon =
      (partitionValues dialect tables partitionBy right).map Value.canon →
    partitionValues dialect tables partitionBy left = partitionValues dialect tables partitionBy right

/-- No row has a NULL in a partition column, and rows whose values spell the same text have the
same values. -/
structure Spelled (dialect : Dialect) (tables : Tables) (partitionBy : List Column) (query : SelectCore) :
    Prop where
  stored : ∀ group ∈ query.survivors dialect tables,
    ∀ value ∈ partitionValues dialect tables partitionBy group, value ≠ .null
  apart : ∀ left ∈ query.survivors dialect tables, ∀ right ∈ query.survivors dialect tables,
    (joinedValue dialect (partitionValues dialect tables partitionBy left)).canon =
      (joinedValue dialect (partitionValues dialect tables partitionBy right)).canon →
    partitionValues dialect tables partitionBy left = partitionValues dialect tables partitionBy right

theorem combinations_length {partitionBy : List Column} {counted listed : SelectCore}
    (matching : SameRows dialect tables partitionBy counted listed) :
    ((listed.survivors dialect tables).map fun group =>
        (partitionValues dialect tables partitionBy group).map Value.canon).dedup.length =
      ((counted.survivors dialect tables).map fun group =>
        (partitionValues dialect tables partitionBy group).map Value.canon).dedup.length := by
  refine ((List.perm_ext_iff_of_nodup (List.nodup_dedup _) (List.nodup_dedup _)).mpr fun key => ?_).length_eq
  rw [List.mem_dedup, List.mem_dedup, List.mem_map, List.mem_map]
  constructor
  · rintro ⟨group, member, rfl⟩
    obtain ⟨other, isOther, same⟩ := (matching _).mpr ⟨group, member, rfl⟩
    exact ⟨other, isOther, by rw [same]⟩
  · rintro ⟨group, member, rfl⟩
    obtain ⟨other, isOther, same⟩ := (matching _).mp ⟨group, member, rfl⟩
    exact ⟨other, isOther, by rw [same]⟩

/-- Over the same rows, the partitioned count is the number of rows of the partitioned result
exactly when the partition values are spelled apart. The WITH clause of `state` binds what both
queries read, and neither projects a column of a name that the builds add. -/
theorem partition_total_iff {base : Tables} {state : QueryState} {counted listed : SelectCore} {first : Column}
    {rest : List Column} (selected : List String) (orders : List OrderByColumn)
    (key : Lacks dialect (bindCtes dialect base state.ctes) counted "partition_key")
    (rownum : Lacks dialect (bindCtes dialect base state.ctes) listed "partition_rownum")
    (labels : ∀ column ∈ first :: rest,
      Lacks dialect (bindCtes dialect base state.ctes) listed (partitionLabel column))
    (matching : SameRows dialect (bindCtes dialect base state.ctes) (first :: rest) counted listed)
    (affine : Affine dialect (bindCtes dialect base state.ctes) (first :: rest) counted) :
    (countPartitions counted first rest).total dialect (bindCtes dialect base state.ctes) =
        (partitionedRows dialect base (first :: rest) listed selected orders state).length ↔
      Spelled dialect (bindCtes dialect base state.ctes) (first :: rest) counted := by
  rw [partition_total counted first rest key,
    partitioned_length base (first :: rest) listed selected orders state rownum labels,
    combinations_length matching, distinct_count_eq, List.map_map]
  rw [distinct_length_eq_iff (counted.survivors dialect (bindCtes dialect base state.ctes)) Value.null]
  · constructor
    · rintro ⟨present, apart⟩
      refine ⟨fun group member value isValue null => ?_, fun left isLeft right isRight same => ?_⟩
      · refine present group member (Value.canon_eq_null.mpr ?_)
        exact joined_eq_null.mpr ⟨value, isValue, null⟩
      · exact affine left isLeft right isRight (apart left isLeft right isRight same)
    · intro spelled
      refine ⟨fun group member null => ?_, fun left isLeft right isRight same => ?_⟩
      · obtain ⟨value, isValue, isNull⟩ := joined_eq_null.mp (Value.canon_eq_null.mp null)
        exact spelled.stored group member value isValue isNull
      · rw [spelled.apart left isLeft right isRight same]
  · intro left isLeft right isRight same
    rw [Function.comp_apply, Function.comp_apply, affine left isLeft right isRight same]

/-- One file for every item, with the widths and heights of the items. -/
def pictures (sizes : List (Value × Value)) : Tables := fun table =>
  if table = "files" then
    sizes.zipIdx.map fun entry => [("id", .int entry.2), ("item_id", .int entry.2)]
  else if table = "items" then
    sizes.zipIdx.map fun entry => [("id", .int entry.2), ("width", entry.1.1), ("height", entry.1.2)]
  else []

def pictureQuery : SelectCore where
  items := [.expr (.column "files" "id") "file_id"]
  source := "files"
  sourceName := "files"
  joins := [innerJoin "items" (equals (.column "items" "id") (.column "files" "item_id"))]

/-- Two pictures of sizes that are spelled apart are counted as they are listed. -/
theorem apart_sizes_counted :
    (countPartitions pictureQuery .width [.height]).total (Dialect.bare false)
        (pictures [(.int 1, .int 2), (.int 3, .int 4)]) =
      (partitionedRows (Dialect.bare false) (pictures [(.int 1, .int 2), (.int 3, .int 4)]) [.width, .height]
        pictureQuery ["file_id"] [] (initialState .results .file)).length := by
  have labels : ∀ column ∈ [Column.width, .height],
      Lacks (Dialect.bare false) (pictures [(.int 1, .int 2), (.int 3, .int 4)]) pictureQuery
        (partitionLabel column) := by
    intro column member all index group
    rcases List.mem_cons.mp member with rfl | later
    · rfl
    · rw [List.mem_singleton.mp later]
      rfl
  have affine : Affine (Dialect.bare false) (pictures [(.int 1, .int 2), (.int 3, .int 4)]) [.width, .height]
      pictureQuery := by
    unfold Affine
    decide +kernel
  have spelled : Spelled (Dialect.bare false) (pictures [(.int 1, .int 2), (.int 3, .int 4)]) [.width, .height]
      pictureQuery := ⟨by decide +kernel, by decide +kernel⟩
  exact (@partition_total_iff (Dialect.bare false) (pictures [(.int 1, .int 2), (.int 3, .int 4)])
    (initialState .results .file) pictureQuery pictureQuery .width [.height] ["file_id"] []
    (fun _ _ _ => rfl) (fun _ _ _ => rfl) labels (fun _ => Iff.rfl) affine).mpr spelled

/-- A picture of 1 by 23, one of 12 by 3 and a file without a size are three partitions and
count as one. -/
theorem run_together_sizes_counted :
    (countPartitions pictureQuery .width [.height]).total (Dialect.bare false)
        (pictures [(.int 1, .int 23), (.int 12, .int 3), (.null, .null)]) = 1 ∧
      (partitionedRows (Dialect.bare false) (pictures [(.int 1, .int 23), (.int 12, .int 3), (.null, .null)])
        [.width, .height] pictureQuery ["file_id"] [] (initialState .results .file)).length = 3 := by
  decide +kernel

end Panoptikon.Pql
