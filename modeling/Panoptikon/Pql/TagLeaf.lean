import Panoptikon.Pql.Leaves

/-!
# The tag filter

`match_tags` compiles in two steps: the context's rows whose item carries the
tags, and the context joined to them. The join compares the data row in a text
query and the file otherwise. Files are told apart by their id; texts are not
told apart by their data row alone, since an item can have several files.
-/

namespace Panoptikon.Pql

open Foundation Foundation.Sql

theorem nodup_flatMap_replicate {Elem Key : Type} {elems : List Elem} {key : Elem → Key}
    {times : Elem → Nat} (distinct : (elems.map key).Nodup) :
    (elems.flatMap fun elem => List.replicate (times elem) (key elem)).Nodup ↔
      ∀ elem ∈ elems, times elem ≤ 1 := by
  rw [List.nodup_flatMap]
  constructor
  · exact fun both elem member => List.nodup_replicate.mp (both.1 elem member)
  · intro once
    refine ⟨fun elem member => List.nodup_replicate.mpr (once elem member), ?_⟩
    refine (List.pairwise_map.mp distinct).imp fun apart value isFirst isSecond => ?_
    exact apart ((List.eq_of_mem_replicate isFirst).symm.trans (List.eq_of_mem_replicate isSecond))

theorem nodup_iff_count_le {Elem : Type} [DecidableEq Elem] {values wanted : List Elem}
    (covered : values ⊆ wanted) : values.Nodup ↔ ∀ value ∈ wanted, values.count value ≤ 1 := by
  rw [List.nodup_iff_count_le_one]
  constructor
  · exact fun all value _ => all value
  · intro wantedOnce value
    by_cases member : value ∈ values
    · exact wantedOnce value (covered member)
    · rw [List.count_eq_zero_of_not_mem member]
      exact Nat.zero_le 1

/-- The values that compare equal to a wanted one, as values told apart. -/
theorem count_comparing (values : List Value) (wanted : Value) :
    (values.filter fun value => decide (compareValues .eq value wanted = some true)).length =
      ((values.map Value.canon).filter fun value => value ≠ .null).count wanted.canon := by
  rw [← List.countP_eq_length_filter, List.count_eq_countP, List.countP_filter, List.countP_map]
  refine List.countP_congr fun value _ => ?_
  have nonnull : value.canon = wanted.canon → (value = .null ↔ wanted = .null) := by
    intro same
    rw [← Value.canon_eq_null, same, Value.canon_eq_null]
  simp only [decide_eq_true_eq, compare_values_eq_iff, Function.comp_apply, Bool.and_eq_true,
    beq_iff_eq, ne_eq, Value.canon_eq_null]
  constructor
  · exact fun both => ⟨both.2.2, both.1⟩
  · exact fun both => ⟨both.2, fun isNull => both.2 ((nonnull both.1).mpr isNull), both.1⟩

namespace MatchTags

section

variable {dialect : Dialect} {database : Database} {state after : QueryState}
  {context cte : CteRef} {filter : MatchTags}

/-- The tag test on one row of the context: its item carries the tags. -/
def carries (dialect : Dialect) (tables : Tables) (filter : MatchTags) (context : CteRef)
    (state : QueryState) (row : Row) : Bool :=
  (filter.matchingItems context state).contributes dialect (state.bound dialect tables) row

/-- The column the second step joins on. -/
def joinColumn (state : QueryState) : String := if state.itemDataQuery then "data_id" else "file_id"

theorem join_column_key (state : QueryState) : joinColumn state ∈ state.keyColumns := by
  unfold joinColumn QueryState.keyColumns
  split <;> simp

/-- What the rows that carry the tags are joined by, NULL aside. -/
def joinedBy (dialect : Dialect) (tables : Tables) (filter : MatchTags) (context : CteRef)
    (state : QueryState) : List Value :=
  (((state.bound dialect tables context.name).filter
    (filter.carries dialect tables context state)).map fun row =>
      (row.get (joinColumn state)).canon).filter fun value => value ≠ .null

/-- The state after the first step. -/
def afterMatching (filter : MatchTags) (context : CteRef) (state : QueryState) : QueryState :=
  (createCte state ("match_" ++ state.cteName "MatchTags")
    { core := filter.matchingItems context state }).2

theorem matching_local (filter : MatchTags) (ready : Ready context state)
    (distinct : (state.keys dialect database.tables context).Nodup) :
    Restricting context state (filter.matchingItems context state) ∧
      (filter.matchingItems context state).Local dialect (state.bound dialect database.tables) := by
  have fixed : ∀ join ∈
      [innerJoin "item_data" (.and
        (equals (.column "item_data" "item_id") (context.column "item_id"))
        (equals (.column "item_data" "data_type") (.val (.text "tags")))),
       innerJoin "setters" (equals (.column "setters" "id") (.column "item_data" "setter_id")),
       innerJoin "tags_items"
        (equals (.column "tags_items" "item_data_id") (.column "item_data" "id")),
       innerJoin "tags" (equals (.column "tags" "id") (.column "tags_items" "tag_id"))],
      join.name ∈ baseTables ++ localNames := by
    simp [innerJoin, baseTables]
  have restricting := std_restricting ready fixed filter.conditions (getStdGroupBy context state)
    filter.having
  exact rank_restricts restricting (local_of_std_group_by restricting rfl distinct)

theorem matching_rows (dialect : Dialect) (filter : MatchTags) (ready : Ready context state)
    (distinct : (state.keys dialect database.tables context).Nodup) :
    ((filter.afterMatching context state).bound dialect database.tables
        ("match_" ++ state.cteName "MatchTags")).map (Row.pick state.stdColumns) =
      ((state.bound dialect database.tables context.name).filter
        (filter.carries dialect database.tables context state)).map (Row.pick state.stdColumns) := by
  obtain ⟨restricting, isLocal⟩ := matching_local filter ready distinct
  have wraps : Wraps dialect database.tables state (filter.matchingItems context state)
      ⟨"match_" ++ state.cteName "MatchTags"⟩ (filter.afterMatching context state) :=
    ⟨bound_last ⟨_, { core := filter.matchingItems context state }, false⟩ rfl, rfl⟩
  exact held_of_local restricting isLocal wraps

omit filter in
theorem context_not_matching (ready : Ready context state) : context.name ≠ "match_" ++ state.cteName "MatchTags" := by
  have unused : "match_" ++ state.cteName "MatchTags" ∉ namesOf state.ctes :=
    ready.opened.fresh (show DigitFree ("match_" ++ "n") by decide) List.not_mem_nil
  exact fun same => unused (same ▸ ready.defined)

theorem scopes_count (ready : Ready context state)
    (distinct : (state.keys dialect database.tables context).Nodup) (row : Row) :
    ((query context ⟨"match_" ++ state.cteName "MatchTags"⟩ state).scopesOf dialect
      ((filter.afterMatching context state).bound dialect database.tables) row).length =
      (filter.joinedBy dialect database.tables context state).count
        (row.get (joinColumn state)).canon := by
  let matching : CteRef := ⟨"match_" ++ state.cteName "MatchTags"⟩
  let bound := (filter.afterMatching context state).bound dialect database.tables
  have apart : context.name ≠ matching.name := context_not_matching ready
  have joinOn : (if state.itemDataQuery then
        equals (matching.column "data_id") (context.column "data_id")
      else equals (matching.column "file_id") (context.column "file_id")) =
      equals (matching.column (joinColumn state)) (context.column (joinColumn state)) := by
    unfold joinColumn
    split <;> rfl
  have isStd := key_columns_std state (join_column_key state)
  have columns : (bound matching.name).map (fun found => found.get (joinColumn state)) =
      ((state.bound dialect database.tables context.name).filter
        (filter.carries dialect database.tables context state)).map
          fun found => found.get (joinColumn state) := by
    have picked := congrArg (List.map fun found : Row => found.get (joinColumn state))
      (matching_rows dialect filter ready distinct)
    simpa [List.map_map, Function.comp_def, Row.get_pick isStd] using picked
  have scopes : (query context matching state).scopesOf dialect bound row =
      ((bound matching.name).filter fun found =>
        decide (compareValues .eq (found.get (joinColumn state)) (row.get (joinColumn state)) =
          some true)).map fun found => [(matching.name, found), (context.name, row)] := by
    unfold query
    rw [joinOn]
    simp [SelectCore.scopesOf, selectStdFromCte, joinAll, Join.extend, Join.matched, innerJoin,
      List.filter_map, Function.comp_def, Expr.holds, Expr.eval, equals, CteRef.column, Scope.get,
      table_cons_of_ne apart]
  have wanted := count_comparing ((bound matching.name).map fun found =>
    found.get (joinColumn state)) (row.get (joinColumn state))
  rw [List.filter_map, List.length_map, columns, List.map_map] at wanted
  rw [scopes, List.length_map]
  exact wanted

/-- The filter repeats a row of the context once for every match of its join. -/
theorem held_repeated (ready : Ready context state) (distinct : (state.keys dialect database.tables context).Nodup)
    (noBounds : filter.sort.gt = none ∧ filter.sort.lt = none)
    (built : filter.build context state = .ok (cte, after)) : after.itemDataQuery = state.itemDataQuery ∧
    (after.bound dialect database.tables cte.name).map (Row.pick state.stdColumns) =
      (state.bound dialect database.tables context.name).flatMap fun row =>
        List.replicate ((filter.joinedBy dialect database.tables context state).count
          (row.get (joinColumn state)).canon) (row.pick state.stdColumns) := by
  let matching : CteRef := ⟨"match_" ++ state.cteName "MatchTags"⟩
  let middle := filter.afterMatching context state
  have wraps : Wraps dialect database.tables middle (query context matching state) cte after :=
    wrap_sorted_wraps noBounds (Except.ok.inj built)
  have apart : context.name ≠ matching.name := context_not_matching ready
  have contextRows : middle.bound dialect database.tables context.name =
      state.bound dialect database.tables context.name := by
    have appended : middle.bound dialect database.tables = bindCtes dialect
        (state.bound dialect database.tables)
        [⟨matching.name, { core := filter.matchingItems context state }, false⟩] :=
      bind_ctes_append dialect database.tables _ _
    rw [appended]
    exact bind_ctes_of_not_mem (by simpa using apart)
  have repeated : ((query context matching state).rows dialect
        (middle.bound dialect database.tables)).map (Row.pick state.stdColumns) =
      (middle.bound dialect database.tables context.name).flatMap fun row =>
        List.replicate ((query context matching state).scopesOf dialect
          (middle.bound dialect database.tables) row).length (row.pick state.stdColumns) :=
    SelectCore.rows_of_ungrouped rfl rfl rfl (by simpa [query, innerJoin, selectStdFromCte] using apart)
      rfl
  refine ⟨wraps.itemDataQuery, ?_⟩
  rw [wraps.rows]
  refine repeated.trans ?_
  rw [contextRows]
  refine List.flatMap_congr fun row _ => ?_
  exact congrArg (List.replicate · _) (scopes_count ready distinct row)

theorem keys_repeated (ready : Ready context state) (distinct : (state.keys dialect database.tables context).Nodup)
    (noBounds : filter.sort.gt = none ∧ filter.sort.lt = none)
    (built : filter.build context state = .ok (cte, after)) : after.keys dialect database.tables cte =
      (state.bound dialect database.tables context.name).flatMap fun row =>
        List.replicate ((filter.joinedBy dialect database.tables context state).count
          (row.get (joinColumn state)).canon) (SelectCore.rowKey state.keyColumns row) := by
  obtain ⟨kind, repeated⟩ := held_repeated ready distinct noBounds built
  have columns : after.keyColumns = state.keyColumns := by
    simp only [QueryState.keyColumns, kind]
  unfold QueryState.keys
  rw [columns, ← keys_of_rows, repeated, List.map_flatMap]
  refine List.flatMap_congr fun row _ => ?_
  rw [List.map_replicate, row_key_pick]

theorem restricts_iff (ready : Ready context state) (distinct : (state.keys dialect database.tables context).Nodup)
    (noBounds : filter.sort.gt = none ∧ filter.sort.lt = none)
    (built : filter.build context state = .ok (cte, after)) :
    KeysRestricted dialect database.tables context state cte after ↔
      (filter.joinedBy dialect database.tables context state).Nodup := by
  have keys := keys_repeated ready distinct noBounds built
  have covered : filter.joinedBy dialect database.tables context state ⊆
      (state.bound dialect database.tables context.name).map fun row =>
        (row.get (joinColumn state)).canon :=
    fun value member => (List.filter_sublist.map _).subset (List.mem_filter.mp member).1
  rw [nodup_iff_count_le covered, List.forall_mem_map, ← nodup_flatMap_replicate distinct, ← keys]
  refine ⟨KeysRestricted.distinct, fun once => ⟨once, fun key member => ?_⟩⟩
  rw [keys] at member
  obtain ⟨row, isRow, repeated⟩ := List.mem_flatMap.mp member
  exact List.eq_of_mem_replicate repeated ▸ List.mem_map_of_mem isRow

theorem joined_by_distinct (isFile : state.itemDataQuery = false)
    (distinct : (state.keys dialect database.tables context).Nodup) :
    (filter.joinedBy dialect database.tables context state).Nodup := by
  have byFile : ((state.bound dialect database.tables context.name).map fun row =>
      [(row.get "file_id").canon]).Nodup := by
    rw [QueryState.keys, QueryState.keyColumns, isFile] at distinct
    exact distinct
  have files : ((state.bound dialect database.tables context.name).map fun row =>
      (row.get "file_id").canon).Nodup := by
    refine List.Nodup.of_map (fun id => [id]) ?_
    rwa [List.map_map]
  have column : joinColumn state = "file_id" := by simp [joinColumn, isFile]
  unfold joinedBy
  rw [column]
  exact (files.sublist (List.filter_sublist.map _)).filter _

end

end MatchTags

/-- The filters that add no rank to bound by, or are not asked to. -/
def Filter.Plain : Filter → Prop
  | .match_ _ | .processedBy _ | .hasUnprocessedData _ => True
  | .matchTags filter => filter.sort.gt = none ∧ filter.sort.lt = none
  | .inBookmarks filter => filter.sort.gt = none ∧ filter.sort.lt = none
  | .matchText filter =>
      (filter.sort.gt = none ∧ filter.sort.lt = none) ∧ filter.snippetAlias = none
  | _ => False

/-- In a text query, no two rows that carry the tags have one data row. -/
def Filter.Separates (dialect : Dialect) (tables : Tables) (context : CteRef)
    (state : QueryState) : Filter → Prop
  | .matchTags filter => state.itemDataQuery = true →
      (filter.joinedBy dialect tables context state).Nodup
  | _ => True

section Plain

variable {dialect : Dialect} {database : Database} {floats : FloatText}
  {state after : QueryState} {context cte : CteRef}

theorem Filter.plain_restricts_iff {filter : Filter} (ready : Ready context state)
    (distinct : (state.keys dialect database.tables context).Nodup) (plain : filter.Plain)
    (built : filter.build floats context state = .ok (cte, after)) :
    KeysRestricted dialect database.tables context state cte after ↔
      filter.Separates dialect database.tables context state := by
  cases filter with
  | match_ filter => exact iff_of_true (filter.keys_restricted ready distinct built) trivial
  | processedBy filter => exact iff_of_true (filter.keys_restricted ready distinct built) trivial
  | hasUnprocessedData filter =>
      exact iff_of_true (filter.keys_restricted ready distinct built) trivial
  | inBookmarks filter =>
      exact iff_of_true (filter.keys_restricted ready distinct plain built) trivial
  | matchText filter =>
      exact iff_of_true (filter.keys_restricted ready distinct plain.1 plain.2 built) trivial
  | matchTags filter =>
      rw [MatchTags.restricts_iff ready distinct plain built]
      refine ⟨fun once _ => once, fun separates => ?_⟩
      by_cases isText : state.itemDataQuery = true
      · exact separates isText
      · exact MatchTags.joined_by_distinct (Bool.eq_false_of_not_eq_true isText) distinct
  | matchPath | semanticTextSearch | semanticImageSearch | similarTo | failedFor | inPinboard =>
      exact plain.elim

end Plain

/-- Two files of one item that has a text and carries the tag `cat`. -/
def taggedTables : Tables
  | "files" => [[("id", .int 1), ("item_id", .int 1)], [("id", .int 2), ("item_id", .int 1)]]
  | "items" => [[("id", .int 1)]]
  | "item_data" =>
      [[("id", .int 10), ("item_id", .int 1), ("setter_id", .int 1), ("data_type", .text "text")],
       [("id", .int 11), ("item_id", .int 1), ("setter_id", .int 1), ("data_type", .text "tags")]]
  | "extracted_text" => [[("id", .int 10), ("text", .text "a cat")]]
  | "setters" => [[("id", .int 1), ("name", .text "tagger")]]
  | "tags" => [[("id", .int 1), ("name", .text "cat")]]
  | "tags_items" => [[("item_data_id", .int 11), ("tag_id", .int 1), ("confidence", .int 1)]]
  | _ => []

def taggedDatabase : Database where
  tables := taggedTables
  files := ⟨by simp [taggedTables, Row.get], by decide⟩
  items := ⟨by simp [taggedTables, Row.get], by decide⟩
  itemData := ⟨by simp [taggedTables, Row.get], by decide⟩
  extractedText := ⟨by simp [taggedTables, Row.get], by decide⟩
  setters := ⟨by simp [taggedTables, Row.get], by decide⟩
  extractedTextFts := ⟨by simp [taggedTables], by decide⟩
  filesPathFts := ⟨by simp [taggedTables], by decide⟩
  fileItem := by decide

def catFilter : MatchTags := { matchTags := { tags := ["cat"] } }

theorem cat_joined_by : catFilter.joinedBy (.bare true) taggedTables ⟨"begin_cte"⟩
    (beginState .results .text) = [.int 10, .int 10] := by decide +kernel

/-- In a file query the tag filter restricts its context. -/
theorem cat_files_restricted_iff : ∃ cte after,
    (Filter.matchTags catFilter).build ⟨fun _ => ""⟩ ⟨"begin_cte"⟩ (beginState .results .file) =
      .ok (cte, after) ∧
    (KeysRestricted (.bare true) taggedDatabase.tables ⟨"begin_cte"⟩ (beginState .results .file)
        cte after ↔
      (Filter.matchTags catFilter).Separates (.bare true) taggedDatabase.tables ⟨"begin_cte"⟩
        (beginState .results .file)) := by
  obtain ⟨cte, after, built⟩ : ∃ cte after, (Filter.matchTags catFilter).build ⟨fun _ => ""⟩
      ⟨"begin_cte"⟩ (beginState .results .file) = .ok (cte, after) := ⟨_, _, rfl⟩
  exact ⟨cte, after, built, Filter.plain_restricts_iff (begin_ready .results .file)
    (begin_keys (.bare true) taggedDatabase .results .file) ⟨rfl, rfl⟩ built⟩

/-- In a text query both files of the item are joined to both. -/
theorem cat_texts_repeated : ¬ ∀ (dialect : Dialect) (database : Database) (floats : FloatText)
    (filter : Filter) (context cte : CteRef) (state after : QueryState),
    Ready context state → (state.keys dialect database.tables context).Nodup → filter.Plain →
    filter.build floats context state = .ok (cte, after) →
    KeysRestricted dialect database.tables context state cte after := by
  intro restricted
  have ready := begin_ready .results .text
  have distinct := begin_keys (.bare true) taggedDatabase .results .text
  obtain ⟨cte, after, built⟩ : ∃ cte after, catFilter.build ⟨"begin_cte"⟩
      (beginState .results .text) = .ok (cte, after) := ⟨_, _, rfl⟩
  have once := restricted (.bare true) taggedDatabase ⟨fun _ => ""⟩ (.matchTags catFilter)
    ⟨"begin_cte"⟩ cte _ after ready distinct ⟨rfl, rfl⟩ built
  have joined := (MatchTags.restricts_iff ready distinct ⟨rfl, rfl⟩ built).mp once
  rw [show taggedDatabase.tables = taggedTables from rfl, cat_joined_by] at joined
  exact absurd joined (by decide)

end Panoptikon.Pql
