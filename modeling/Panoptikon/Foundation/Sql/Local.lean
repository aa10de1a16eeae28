import Panoptikon.Foundation.Sql.Select
import Mathlib.Data.List.GetD

/-!
# Selects that restrict their source

A select is local when every group of its result comes from one row of the
source. Grouping by columns that tell the source rows apart makes a select
local; so do joins that match at most one row each. The columns a local select
copies are then those of the source rows that contribute and pass its HAVING
clause, in their order and each once.
-/

namespace Foundation.Sql

section Grouping

variable {Source Part Key : Type} [DecidableEq Key] {expand : Source → List Part}
  {key : Part → Key} {sourceKey : Source → Key}

theorem dedup_replicate_append {times : Nat} {first : Key} {rest : List Key} (fresh : first ∉ rest) :
    (List.replicate times first ++ rest).dedup =
      if times = 0 then rest.dedup else first :: rest.dedup := by
  induction times with
  | zero => simp
  | succ times ih =>
    rw [List.replicate_succ, List.cons_append, if_neg (Nat.succ_ne_zero times)]
    by_cases more : times = 0
    · subst more
      simp [List.dedup_cons_of_notMem fresh]
    · rw [List.dedup_cons_of_mem (by simp [more]), ih, if_neg more]

/-- Grouping what the sources contribute, by a key that tells the sources apart,
gives one group for every source that contributes. -/
theorem groups_of_sources {sources : List Source}
    (keyed : ∀ source ∈ sources, ∀ part ∈ expand source, key part = sourceKey source)
    (distinct : (sources.map sourceKey).Nodup) :
    (((sources.flatMap expand).map key).dedup.map fun value =>
      (sources.flatMap expand).filter fun part => key part = value) =
      (sources.map expand).filter fun group => !group.isEmpty := by
  induction sources with
  | nil => rfl
  | cons first rest ih =>
    rw [List.map_cons, List.nodup_cons] at distinct
    have restKeyed : ∀ source ∈ rest, ∀ part ∈ expand source,
        key part = sourceKey source :=
      fun source member => keyed source (List.mem_cons_of_mem _ member)
    have fresh : sourceKey first ∉ (rest.flatMap expand).map key := by
      intro member
      obtain ⟨part, inside, same⟩ := List.mem_map.mp member
      obtain ⟨source, isSource, expanded⟩ := List.mem_flatMap.mp inside
      refine distinct.1 (List.mem_map.mpr ⟨source, isSource, ?_⟩)
      rw [← same, restKeyed source isSource part expanded]
    have firstKeys : (expand first).map key =
        List.replicate (expand first).length (sourceKey first) :=
      List.eq_replicate_iff.mpr ⟨List.length_map _, fun value member => by
        obtain ⟨part, inside, same⟩ := List.mem_map.mp member
        rw [← same, keyed first List.mem_cons_self part inside]⟩
    have ownGroup : ((expand first ++ rest.flatMap expand).filter fun part =>
        key part = sourceKey first) = expand first := by
      rw [List.filter_append, List.filter_eq_self.mpr, List.filter_eq_nil_iff.mpr,
        List.append_nil]
      · intro part inside same
        exact fresh (List.mem_map.mpr ⟨part, inside, of_decide_eq_true same⟩)
      · intro part inside
        exact decide_eq_true (keyed first List.mem_cons_self part inside)
    have otherGroups : ∀ value ∈ ((rest.flatMap expand).map key).dedup,
        ((expand first ++ rest.flatMap expand).filter fun part => key part = value) =
          (rest.flatMap expand).filter fun part => key part = value := by
      intro value member
      rw [List.filter_append, List.filter_eq_nil_iff.mpr, List.nil_append]
      intro part inside same
      have isFirst : value = sourceKey first :=
        (of_decide_eq_true same).symm.trans (keyed first List.mem_cons_self part inside)
      exact fresh (isFirst ▸ List.mem_dedup.mp member)
    rw [List.flatMap_cons, List.map_append, firstKeys, dedup_replicate_append fresh,
      List.map_cons, List.filter_cons]
    by_cases empty : expand first = []
    · simp only [empty, List.length_nil, if_true, List.nil_append, List.isEmpty_nil]
      exact ih restKeyed distinct.2
    · have contributes : (expand first).length ≠ 0 := by simpa using empty
      rw [if_neg contributes, List.map_cons, ownGroup, List.map_congr_left otherGroups,
        ih restKeyed distinct.2, if_pos (by simpa using empty)]

theorem singletons_of_sources {sources : List Source} (single : ∀ source ∈ sources, (expand source).length ≤ 1) :
    ((sources.flatMap expand).map fun part => [part]) =
      (sources.map expand).filter fun group => !group.isEmpty := by
  induction sources with
  | nil => rfl
  | cons first rest ih =>
    have tail := ih fun source member => single source (List.mem_cons_of_mem _ member)
    have head := single first List.mem_cons_self
    rw [List.flatMap_cons, List.map_append, tail, List.map_cons, List.filter_cons]
    match expanded : expand first with
    | [] => rfl
    | [part] => rfl
    | _ :: _ :: _ => simp [expanded] at head

end Grouping

theorem map_of_zipIdx {Elem Result : Type} (convert : Elem → Result) (elems : List Elem) :
    elems.zipIdx.map (fun entry => convert entry.1) = elems.map convert := by
  rw [← Function.comp_def convert Prod.fst, ← List.map_map, List.zipIdx_map_fst]

section Joins

variable {dialect : Dialect} {tables : Tables}

@[simp] theorem table_cons_self (name : String) (row : Row) (scope : Scope) :
    Scope.table ((name, row) :: scope) name = row := by
  simp [Scope.table]

theorem table_cons_of_ne {name other : String} (distinct : name ≠ other) (row : Row)
    (scope : Scope) : Scope.table ((other, row) :: scope) name = scope.table name := by
  simp [Scope.table, List.lookup_cons, beq_false_of_ne distinct]

theorem Join.extend_table {join : Join} {scope extended : Scope} {source : String}
    (fresh : source ≠ join.name) (member : extended ∈ join.extend dialect tables scope) :
    extended.table source = scope.table source := by
  have added : ∃ row, extended = (join.name, row) :: scope := by
    unfold Join.extend at member
    have ofMatched : extended ∈ join.matched dialect tables scope →
        ∃ row, extended = (join.name, row) :: scope := by
      intro found
      obtain ⟨row, _, rfl⟩ := List.mem_map.mp (List.mem_filter.mp found).1
      exact ⟨row, rfl⟩
    split at member
    · exact ofMatched member
    · split at member
      · exact ⟨[], List.mem_singleton.mp member⟩
      · exact ofMatched member
  obtain ⟨row, rfl⟩ := added
  exact table_cons_of_ne fresh row scope

theorem join_all_table {joins : List Join} {start scope : Scope} {source : String}
    (fresh : source ∉ joins.map Join.name) (member : scope ∈ joinAll dialect tables joins start) :
    scope.table source = start.table source := by
  induction joins generalizing start with
  | nil => rw [List.mem_singleton.mp member]
  | cons join rest ih =>
    rw [List.map_cons, List.mem_cons, not_or] at fresh
    obtain ⟨extended, first, later⟩ := List.mem_flatMap.mp member
    rw [ih fresh.2 later, Join.extend_table fresh.1 first]

/-- A join on a column that tells the rows of its table apart, against a value
the scope already fixes, matches at most one row. -/
theorem Join.matched_at_most_one {join : Join} {scope : Scope} (column : String) (wanted : Value)
    (keyed : ((tables join.table).map fun row => (row.get column).canon).Nodup)
    (determined : ∀ row, join.on.holds dialect tables ((join.name, row) :: scope) = true →
      (row.get column).canon = wanted) :
    (join.matched dialect tables scope).length ≤ 1 := by
  let found := (tables join.table).filter fun row =>
    join.on.holds dialect tables ((join.name, row) :: scope)
  have same : found.map (fun row => (row.get column).canon) = List.replicate found.length wanted :=
    List.eq_replicate_iff.mpr ⟨List.length_map _, fun value member => by
      obtain ⟨row, isFound, rfl⟩ := List.mem_map.mp member
      exact determined row (List.mem_filter.mp isFound).2⟩
  have distinct : (found.map fun row => (row.get column).canon).Nodup :=
    keyed.sublist (List.filter_sublist.map _)
  rw [Join.matched, List.filter_map, List.length_map]
  exact List.nodup_replicate.mp (same ▸ distinct)

theorem join_all_at_most_one {joins : List Join} (start : Scope)
    (single : ∀ join ∈ joins, ∀ scope, (join.extend dialect tables scope).length ≤ 1) :
    (joinAll dialect tables joins start).length ≤ 1 := by
  induction joins generalizing start with
  | nil => exact Nat.le_refl 1
  | cons join rest ih =>
    have first := single join List.mem_cons_self start
    rw [joinAll]
    match extended : join.extend dialect tables start with
    | [] => exact Nat.zero_le 1
    | [scope] =>
      rw [List.flatMap_singleton]
      exact ih scope fun other member => single other (List.mem_cons_of_mem _ member)
    | _ :: _ :: _ => simp [extended] at first

end Joins

def Row.pick (columns : List String) (row : Row) : Row :=
  columns.map fun column => (column, row.get column)

variable {columns : List String}

theorem Row.get_pick {column : String} (member : column ∈ columns)
    (row : Row) : (row.pick columns).get column = row.get column := by
  unfold Row.pick
  rw [Row.get, List.lookup_graph _ member]
  rfl

theorem Row.pick_eq_iff {left right : Row} : left.pick columns = right.pick columns ↔
      ∀ column ∈ columns, left.get column = right.get column := by
  constructor
  · intro same column member
    rw [← Row.get_pick member left, same, Row.get_pick member right]
  · exact fun same => List.map_congr_left fun column member => by rw [same column member]

namespace SelectCore

variable {dialect : Dialect} {tables : Tables} {core : SelectCore}

/-- Every group comes from one row of the source. -/
def Local (dialect : Dialect) (tables : Tables) (core : SelectCore) : Prop :=
  core.groups dialect tables =
    ((tables core.source).map (core.scopesOf dialect tables)).filter fun group => !group.isEmpty

theorem scopes_of_table (fresh : core.sourceName ∉ core.joins.map Join.name) {row : Row}
    {scope : Scope} (member : scope ∈ core.scopesOf dialect tables row) : scope.table core.sourceName = row := by
  rw [join_all_table fresh (List.mem_filter.mp member).1, table_cons_self]

/-- The values a row is grouped by. -/
def rowKey (columns : List String) (row : Row) : List Value :=
  columns.map fun column => (row.get column).canon

theorem local_of_group_by (columns : List String) (fresh : core.sourceName ∉ core.joins.map Join.name)
    (grouped : core.groupBy = columns.map (Expr.column core.sourceName)) (some : columns ≠ [])
    (distinct : ((tables core.source).map (rowKey columns)).Nodup) : core.Local dialect tables := by
  have notEmpty : core.groupBy.isEmpty = false := by
    rw [grouped]
    cases columns with
    | nil => exact absurd rfl some
    | cons _ _ => rfl
  unfold Local groups
  rw [if_neg (by simp [notEmpty])]
  refine groups_of_sources (fun row _ scope member => ?_) distinct
  have source := scopes_of_table fresh member
  simp only [groupKey, grouped, List.map_map, rowKey]
  refine List.map_congr_left fun column _ => ?_
  simp [Expr.eval, Scope.get, source]

theorem local_of_at_most_one (ungrouped : core.groupBy = [])
    (single : ∀ row ∈ tables core.source, (core.scopesOf dialect tables row).length ≤ 1) :
    core.Local dialect tables := by
  unfold Local groups
  rw [if_pos (by simp [ungrouped])]
  exact singletons_of_sources single

/-- The source row contributes, and its group passes HAVING. -/
def contributes (dialect : Dialect) (tables : Tables) (core : SelectCore) (row : Row) : Bool :=
  !(core.scopesOf dialect tables row).isEmpty &&
    core.having.all fun condition => decide ((evalGroup dialect tables condition
      (core.scopesOf dialect tables row)).truth = some true)

theorem survivors_of_local (isLocal : core.Local dialect tables) : core.survivors dialect tables =
      ((tables core.source).filter (core.contributes dialect tables)).map
        (core.scopesOf dialect tables) := by
  rw [survivors, isLocal, List.filter_map, List.filter_map, List.filter_filter]
  exact congrArg _ (List.filter_congr fun row _ => Bool.and_comm _ _)

theorem representative_mem {group : List Scope} (nonempty : group ≠ []) : representative dialect group ∈ group := by
  have bound : dialect.pick group % group.length < group.length :=
    Nat.mod_lt _ (List.length_pos_of_ne_nil nonempty)
  rw [representative, List.getD_eq_getElem _ _ bound]
  exact List.getElem_mem bound

/-- Copies columns of one source under their own names. -/
def copies (source : String) (columns : List String) : List Item :=
  columns.map fun column => .expr (.column source column) column

theorem copies_columns (source : String) (columns : List String) (all : List (List Scope))
    (index : Nat) (group : List Scope) :
    (copies source columns).flatMap (Item.columns dialect tables all index group) =
      ((representative dialect group).table source).pick columns := by
  rw [copies, List.flatMap_map, Row.pick, List.map_eq_flatMap]
  rfl

variable {others : List Item}

theorem output_copies {source : String}
    (items : core.items = copies source columns ++ others) (all : List (List Scope)) (index : Nat)
    (group : List Scope) : (core.output dialect tables all index group).pick columns =
      ((representative dialect group).table source).pick columns := by
  refine Row.pick_eq_iff.mpr fun column member => ?_
  unfold output Row.get
  rw [items, List.flatMap_append, copies_columns, List.lookup_append, Row.pick,
    List.lookup_graph _ member]
  rfl

theorem rows_unordered (unordered : core.orderBy = []) :
    core.rows dialect tables = (core.survivors dialect tables).zipIdx.map fun entry =>
      core.output dialect tables (core.survivors dialect tables) entry.2 entry.1 := by
  simp [rows, unordered, produced, Function.comp_def]

/-- What is read off the source of a local select is read off the rows that
contribute. -/
theorem view_of_local {View : Type} {view ofSource : Row → View}
    (isLocal : core.Local dialect tables) (fresh : core.sourceName ∉ core.joins.map Join.name)
    (unordered : core.orderBy = [])
    (projected : ∀ all index group, view (core.output dialect tables all index group) =
      ofSource ((representative dialect group).table core.sourceName)) :
    (core.rows dialect tables).map view =
      ((tables core.source).filter (core.contributes dialect tables)).map ofSource := by
  have sourceRow : ∀ row ∈ (tables core.source).filter (core.contributes dialect tables),
      (representative dialect (core.scopesOf dialect tables row)).table core.sourceName = row := by
    intro row member
    have contributing := (List.mem_filter.mp member).2
    have nonempty : core.scopesOf dialect tables row ≠ [] := by
      simpa using (Bool.and_eq_true_iff.mp contributing).1
    exact scopes_of_table fresh (representative_mem nonempty)
  rw [rows_unordered unordered, List.map_map]
  calc (core.survivors dialect tables).zipIdx.map _
      = (core.survivors dialect tables).zipIdx.map fun entry =>
          ofSource ((representative dialect entry.1).table core.sourceName) :=
        List.map_congr_left fun entry _ => projected _ entry.2 entry.1
    _ = (core.survivors dialect tables).map fun group =>
          ofSource ((representative dialect group).table core.sourceName) :=
        map_of_zipIdx (fun group =>
          ofSource ((representative dialect group).table core.sourceName)) _
    _ = _ := by
        rw [survivors_of_local isLocal, List.map_map]
        exact List.map_congr_left fun row member => congrArg ofSource (sourceRow row member)

/-- The columns a local select copies are those of the rows that contribute. -/
theorem rows_of_local (isLocal : core.Local dialect tables)
    (fresh : core.sourceName ∉ core.joins.map Join.name) (unordered : core.orderBy = [])
    (items : core.items = copies core.sourceName columns ++ others) :
    (core.rows dialect tables).map (Row.pick columns) =
      ((tables core.source).filter (core.contributes dialect tables)).map (Row.pick columns) :=
  view_of_local isLocal fresh unordered (output_copies items)

/-- A select of expressions, without groups, gives one row for every scope. -/
theorem rows_of_plain {columns : List (Expr × String)} (ungrouped : core.groupBy = [])
    (unfiltered : core.having = []) (unordered : core.orderBy = [])
    (items : core.items = columns.map fun column => .expr column.1 column.2) :
    core.rows dialect tables = (core.scopes dialect tables).map fun scope =>
      columns.map fun column => (column.2, column.1.eval dialect tables [scope] scope) := by
  have groups : core.survivors dialect tables =
      (core.scopes dialect tables).map fun scope => [scope] := by
    simp [survivors, SelectCore.groups, ungrouped, unfiltered]
  have output (all : List (List Scope)) (index : Nat) (scope : Scope) :
      core.output dialect tables all index [scope] =
        columns.map fun column => (column.2, column.1.eval dialect tables [scope] scope) := by
    rw [SelectCore.output, items, List.flatMap_map, List.map_eq_flatMap]
    refine List.flatMap_congr fun column _ => ?_
    simp [Item.columns, evalGroup, representative, Nat.mod_one]
  rw [rows_unordered unordered, groups, List.zipIdx_map, List.map_map]
  simp only [Function.comp_def, Prod.map, id, output]
  exact map_of_zipIdx (fun scope => columns.map fun column =>
    (column.2, column.1.eval dialect tables [scope] scope)) _

theorem rows_of_ungrouped (ungrouped : core.groupBy = []) (unfiltered : core.having = [])
    (unordered : core.orderBy = []) (fresh : core.sourceName ∉ core.joins.map Join.name)
    (items : core.items = copies core.sourceName columns ++ others) :
    (core.rows dialect tables).map (Row.pick columns) =
      (tables core.source).flatMap fun row =>
        List.replicate (core.scopesOf dialect tables row).length (row.pick columns) := by
  have groups : core.survivors dialect tables =
      (core.scopes dialect tables).map fun scope => [scope] := by
    simp [survivors, SelectCore.groups, ungrouped, unfiltered]
  have output (all : List (List Scope)) (index : Nat) (scope : Scope) :
      (core.output dialect tables all index [scope]).pick columns =
        (scope.table core.sourceName).pick columns := by
    rw [output_copies items]
    simp [representative, Nat.mod_one]
  rw [rows_unordered unordered, groups, List.zipIdx_map, List.map_map, List.map_map]
  simp only [Function.comp_def, Prod.map, id, output]
  rw [map_of_zipIdx fun scope : Scope => (scope.table core.sourceName).pick columns, scopes,
    List.map_flatMap]
  refine List.flatMap_congr fun row _ => List.eq_replicate_iff.mpr ⟨List.length_map _, ?_⟩
  intro picked member
  obtain ⟨scope, isScope, rfl⟩ := List.mem_map.mp member
  rw [scopes_of_table fresh isScope]

/-- A select that only copies columns of one source returns the picked rows. -/
theorem rows_of_copies {source name : String} (columns : List String) :
    SelectCore.rows dialect tables { items := copies name columns, source, sourceName := name } =
      (tables source).map (Row.pick columns) := by
  let copying : SelectCore := { items := copies name columns, source, sourceName := name }
  have scopes : copying.scopes dialect tables = (tables source).map fun row => [(name, row)] := by
    have one (row : Row) : copying.scopesOf dialect tables row = [[(name, row)]] := by
      simp [copying, scopesOf, joinAll]
    rw [SelectCore.scopes, List.map_eq_flatMap]
    exact List.flatMap_congr fun row _ => one row
  have items : copying.items =
      (columns.map fun column => (Expr.column name column, column)).map fun column =>
        .expr column.1 column.2 := by
    simp [copying, copies]
  have plain : copying.rows dialect tables = _ := rows_of_plain rfl rfl rfl items
  rw [scopes, List.map_map] at plain
  refine plain.trans (List.map_congr_left fun row _ => ?_)
  simp [Row.pick, Expr.eval, Scope.get]

end SelectCore

end Foundation.Sql
