import Panoptikon.Foundation.Restriction
import Panoptikon.Pql.Database
import Panoptikon.Pql.WithClause

/-!
# What a filter tree means

A tree restricts the rows it starts from by its boolean meaning. An And
restricts a restriction, an Or unites restrictions of one context, and a Not is
an anti-join with a restriction of its context: each is the tree's meaning when
its leaves are restrictions by theirs.
-/

namespace Panoptikon.Pql

open Foundation Foundation.Sql

/-- Rows of integers that their keys tell apart: files, or files with texts. -/
structure Entities (state : QueryState) (entities : List Row) : Prop where
  integers : ∀ entity ∈ entities, ∀ column ∈ state.stdColumns, ∃ number,
    entity.get column = .int number
  picked : ∀ entity ∈ entities, entity.pick state.stdColumns = entity
  distinct : (entities.map (SelectCore.rowKey state.keyColumns)).Nodup

section Entities

variable {state : QueryState} {entities : List Row}

section

variable (is : Entities state entities)

include is

theorem Entities.canonical : ∀ entity ∈ entities, entity.canon = entity := by
  intro entity member
  have canon : ∀ column ∈ state.stdColumns,
      (column, (entity.get column).canon) = (column, entity.get column) := by
    intro column isStd
    obtain ⟨number, isInt⟩ := is.integers entity member column isStd
    rw [isInt, Value.canon_int]
  calc entity.canon = (entity.pick state.stdColumns).canon := by rw [is.picked entity member]
    _ = entity.pick state.stdColumns := by
        rw [Row.canon, Row.pick, List.map_map]
        exact List.map_congr_left canon
    _ = entity := is.picked entity member

theorem Entities.eq_of_key {left right : Row} (isLeft : left ∈ entities) (isRight : right ∈ entities)
    (same : ∀ column ∈ state.keyColumns, left.get column = right.get column) : left = right :=
  List.inj_on_of_nodup_map is.distinct isLeft isRight
    (List.map_congr_left fun column member => by rw [same column member])

theorem Entities.nodup : entities.Nodup := is.distinct.of_map

/-- A comparison of a column of two rows is a comparison of what they hold. -/
theorem Entities.equal_columns {left right : Row}
    (isLeft : left ∈ entities) (isRight : right ∈ entities) {column : String}
    (isStd : column ∈ state.stdColumns) : compareValues .eq (left.get column) (right.get column) = some true ↔
      left.get column = right.get column := by
  obtain ⟨first, isFirst⟩ := is.integers left isLeft column isStd
  obtain ⟨second, isSecond⟩ := is.integers right isRight column isStd
  rw [compare_values_eq_iff, isFirst, isSecond]
  simp

end

end Entities

section Begin

variable (dialect : Dialect) (database : Database)

/-- What `begin_cte` holds: the files, and in a text query each with its texts. -/
def beginEntities (mode : BuildMode) (entity : EntityType) : List Row :=
  (beginState mode entity).held dialect database.tables ⟨"begin_cte"⟩

variable {dialect database}

theorem begin_held (mode : BuildMode) (entity : EntityType) : beginEntities dialect database mode entity =
      ((startQuery (initialState mode entity)).rows dialect database.tables).map
        (Row.pick (initialState mode entity).stdColumns) := by
  unfold beginEntities QueryState.held
  have ctes : (beginState mode entity).ctes = [] ++ [⟨"begin_cte",
      { core := startQuery (initialState mode entity) }, false⟩] := rfl
  rw [bound_last _ ctes]
  rfl

def fileEntity (file : Row) : Row :=
  [("item_id", file.get "item_id"), ("file_id", file.get "id")]

def textEntity (file text : Row) : Row :=
  [("item_id", file.get "item_id"), ("file_id", file.get "id"), ("data_id", text.get "id")]

/-- The data row is a text of the file's item. -/
def isTextOf (dialect : Dialect) (database : Database) (file text : Row) : Bool :=
  (entityJoin .text).on.holds dialect database.tables [("item_data", text), ("files", file)]

theorem begin_files (mode : BuildMode) : beginEntities dialect database mode .file =
      (database.tables "files").map fileEntity := by
  have scopes : (startQuery (initialState mode .file)).scopes dialect database.tables =
      (database.tables "files").map fun file => [("files", file)] := by
    have one (file : Row) : (startQuery (initialState mode .file)).scopesOf dialect
        database.tables file = [[("files", file)]] := by
      simp [startQuery, initialState, SelectCore.scopesOf, joinAll]
    rw [SelectCore.scopes, List.map_eq_flatMap]
    exact List.flatMap_congr fun file _ => one file
  have columns : (startQuery (initialState mode .file)).items =
      [(Expr.column "files" "id", "file_id"), (.column "files" "item_id", "item_id")].map
        fun column => .expr column.1 column.2 := rfl
  rw [begin_held, SelectCore.rows_of_plain rfl rfl rfl columns, scopes, List.map_map, List.map_map]
  refine List.map_congr_left fun file _ => ?_
  simp [fileEntity, Row.pick, QueryState.stdColumns, initialState, Row.get, Expr.eval, Scope.get,
    Scope.table, List.lookup_cons]

theorem begin_texts (mode : BuildMode) : beginEntities dialect database mode .text =
      (database.tables "files").flatMap fun file =>
        ((database.tables "item_data").filter (isTextOf dialect database file)).map
          (textEntity file) := by
  have scopes : (startQuery (initialState mode .text)).scopes dialect database.tables =
      (database.tables "files").flatMap fun file =>
        ((database.tables "item_data").filter (isTextOf dialect database file)).map
          fun text => [("item_data", text), ("files", file)] := by
    refine List.flatMap_congr fun file _ => ?_
    simp [startQuery, initialState, SelectCore.scopesOf, joinAll, Join.extend, Join.matched,
      entityJoin, innerJoin, List.filter_map, Function.comp_def]
    rfl
  have columns : (startQuery (initialState mode .text)).items =
      [(Expr.column "files" "id", "file_id"), (.column "files" "item_id", "item_id"),
        (.column "item_data" "id", "data_id")].map fun column => .expr column.1 column.2 := rfl
  rw [begin_held, SelectCore.rows_of_plain rfl rfl rfl columns, scopes, List.map_map,
    List.map_flatMap]
  refine List.flatMap_congr fun file _ => ?_
  rw [List.map_map]
  refine List.map_congr_left fun text _ => ?_
  simp [textEntity, Row.pick, QueryState.stdColumns, initialState, Row.get, Expr.eval, Scope.get,
    Scope.table, List.lookup_cons]

theorem Database.file_integers (database : Database) {file : Row} (member : file ∈ database.tables "files") :
    (∃ number, file.get "id" = .int number) ∧ ∃ number, file.get "item_id" = .int number := by
  obtain ⟨item, isItem, same⟩ := database.fileItem file member
  exact ⟨database.files.integers file member, same ▸ database.items.integers item isItem⟩

section

variable (mode : BuildMode)

include mode

theorem file_keys : (beginState mode .file).stdColumns = ["item_id", "file_id"] ∧
      (beginState mode .file).keyColumns = ["file_id"] := ⟨rfl, rfl⟩

theorem text_keys : (beginState mode .text).stdColumns = ["item_id", "file_id", "data_id"] ∧
      (beginState mode .text).keyColumns = ["data_id", "file_id"] := ⟨rfl, rfl⟩

theorem begin_file_entities :
    Entities (beginState mode .file) (beginEntities dialect database mode .file) := by
  rw [begin_files]
  refine ⟨?_, ?_, ?_⟩
  · refine List.forall_mem_map.mpr fun file member column isStd => ?_
    obtain ⟨fileId, itemId⟩ := database.file_integers member
    rw [(file_keys mode).1] at isStd
    rcases List.mem_pair.mp isStd with rfl | rfl
    · exact itemId
    · exact fileId
  · exact List.forall_mem_map.mpr fun file _ => rfl
  · have keys : ((database.tables "files").map fileEntity).map
        (SelectCore.rowKey (beginState mode .file).keyColumns) =
        ((database.tables "files").map fun file => (file.get "id").canon).map fun id => [id] := by
      rw [List.map_map, List.map_map]
      rfl
    rw [keys]
    exact database.files.canonical.map fun _ _ same => List.singleton_inj.mp same

theorem begin_text_entities :
    Entities (beginState mode .text) (beginEntities dialect database mode .text) := by
  have members : ∀ entity ∈ beginEntities dialect database mode .text,
      ∃ file ∈ database.tables "files", ∃ text ∈ database.tables "item_data",
        textEntity file text = entity := by
    intro entity member
    rw [begin_texts] at member
    obtain ⟨file, isFile, inFile⟩ := List.mem_flatMap.mp member
    obtain ⟨text, isText, same⟩ := List.mem_map.mp inFile
    exact ⟨file, isFile, text, (List.mem_filter.mp isText).1, same⟩
  refine ⟨?_, ?_, ?_⟩
  · intro entity member column isStd
    obtain ⟨file, isFile, text, isText, rfl⟩ := members entity member
    obtain ⟨fileId, itemId⟩ := database.file_integers isFile
    rw [(text_keys mode).1] at isStd
    simp only [List.mem_cons, List.not_mem_nil, or_false] at isStd
    rcases isStd with rfl | rfl | rfl
    · exact itemId
    · exact fileId
    · exact database.itemData.integers text isText
  · intro entity member
    obtain ⟨file, _, text, _, rfl⟩ := members entity member
    rfl
  · have keys : (beginEntities dialect database mode .text).map
        (SelectCore.rowKey (beginState mode .text).keyColumns) =
        (database.tables "files").flatMap fun file =>
          ((database.tables "item_data").filter (isTextOf dialect database file)).map
            fun text => [(text.get "id").canon, (file.get "id").canon] := by
      rw [begin_texts, List.map_flatMap]
      refine List.flatMap_congr fun file _ => ?_
      rw [List.map_map]
      rfl
    rw [keys, List.nodup_flatMap]
    refine ⟨fun file _ => ?_, ?_⟩
    · have texts : (((database.tables "item_data").filter (isTextOf dialect database file)).map
          fun text => (text.get "id").canon).Nodup :=
        database.itemData.canonical.sublist (List.filter_sublist.map _)
      have injective : Function.Injective fun id => [id, (file.get "id").canon] :=
        fun _ _ same => (List.cons.inj same).1
      have paired := texts.map injective
      rw [List.map_map] at paired
      exact paired
    · refine (List.pairwise_map.mp database.files.canonical).imp fun apart => ?_
      intro key isFirst isSecond
      obtain ⟨_, _, first⟩ := List.mem_map.mp isFirst
      obtain ⟨_, _, second⟩ := List.mem_map.mp isSecond
      rw [← second] at first
      simp only [List.cons.injEq, and_true] at first
      exact apart first.2

theorem begin_entities (entity : EntityType) :
    Entities (beginState mode entity) (beginEntities dialect database mode entity) := by
  cases entity with
  | file => exact begin_file_entities mode
  | text => exact begin_text_entities mode

end

end Begin

section Connectives

variable {dialect : Dialect} {tables : Tables} {state after : QueryState}
  {context sub cte : CteRef}

theorem std_rows (cte : CteRef) (state : QueryState) : (selectStdFromCte cte state).rows dialect tables =
      (tables cte.name).map (Row.pick state.stdColumns) :=
  SelectCore.rows_of_copies state.stdColumns

variable {kind : String}

theorem held_of_registered {query : Select}
    (registered : registerOwn state kind query = (cte, after)) : after.held dialect tables cte =
      (query.rows dialect (state.bound dialect tables)).map (Row.pick state.stdColumns) := by
  cases registered
  unfold QueryState.held
  rw [bound_last ⟨state.cteName kind, query, false⟩ rfl]
  rfl

theorem union_rows (first : CteRef) (rest : List CteRef) :
    (unionQuery first rest state).rows dialect (state.bound dialect tables) =
      if rest.isEmpty then state.held dialect tables first
      else distinctBy Row.canon ((first :: rest).flatMap (state.held dialect tables)) := by
  have united : ((first :: rest).map fun sub => selectStdFromCte sub state).flatMap
      (fun core => core.rows dialect (state.bound dialect tables)) =
        (first :: rest).flatMap (state.held dialect tables) := by
    rw [List.flatMap_map]
    exact List.flatMap_congr fun sub _ => std_rows sub state
  unfold Select.rows unionQuery
  rw [List.isEmpty_map]
  split
  · exact std_rows first state
  · exact congrArg _ united

theorem union_held {entities : List Row} (is : Entities state entities) {first : CteRef} {rest : List CteRef}
    (inside : ∀ sub ∈ first :: rest, (state.held dialect tables sub).Nodup ∧
      state.held dialect tables sub ⊆ entities)
    (registered : registerOwn state kind (unionQuery first rest state) = (cte, after)) :
    (after.held dialect tables cte).Nodup ∧ ∀ entity,
      entity ∈ after.held dialect tables cte ↔
        ∃ sub ∈ first :: rest, entity ∈ state.held dialect tables sub := by
  have keptAsIs : ∀ rows : List Row, rows ⊆ entities →
      rows.map (Row.pick state.stdColumns) = rows := fun rows subset =>
    (List.map_congr_left fun row member => is.picked row (subset member)).trans (List.map_id _)
  have unitedInside : (first :: rest).flatMap (state.held dialect tables) ⊆ entities := by
    intro entity member
    obtain ⟨sub, isSub, held⟩ := List.mem_flatMap.mp member
    exact (inside sub isSub).2 held
  rw [held_of_registered registered, union_rows]
  split
  · rename_i single
    rw [List.isEmpty_iff.mp single, keptAsIs _ (inside first List.mem_cons_self).2]
    exact ⟨(inside first List.mem_cons_self).1, fun entity => by simp⟩
  · rw [keptAsIs _ fun entity member => unitedInside (mem_of_mem_distinct_by member)]
    refine ⟨distinct_by_nodup _, fun entity => ?_⟩
    rw [mem_distinct_by, List.mem_flatMap]
    intro left isLeft right isRight same
    rwa [is.canonical left (unitedInside isLeft), is.canonical right (unitedInside isRight)] at same

/-- The condition an anti-join looks for a partner on. -/
def partnerOn (context sub : CteRef) (state : QueryState) : Expr :=
  if state.itemDataQuery then
    .and (equals (sub.column "file_id") (context.column "file_id"))
      (equals (sub.column "data_id") (context.column "data_id"))
  else equals (sub.column "file_id") (context.column "file_id")

/-- The column that is NULL where no partner was found. -/
def partnerColumn (state : QueryState) : String :=
  if state.itemDataQuery then "data_id" else "file_id"

theorem partner_column_key (state : QueryState) : partnerColumn state ∈ state.keyColumns := by
  unfold partnerColumn QueryState.keyColumns
  split <;> simp

theorem anti_join_core (context sub : CteRef) (state : QueryState) : (antiJoin context sub state).core =
      { selectStdFromCte context state with
        joins := [leftJoin sub.name (partnerOn context sub state)]
        conditions := [.isNull (sub.column (partnerColumn state))] } := rfl

section AntiJoin

variable {entities : List Row} (is : Entities state entities) (apart : sub.name ≠ context.name)
  {row partner : Row} (rowInside : row.pick state.stdColumns ∈ entities)
  (partnerInside : partner.pick state.stdColumns ∈ entities)

include is apart rowInside partnerInside

theorem partner_holds : (partnerOn context sub state).holds dialect tables
      [(sub.name, partner), (context.name, row)] = true ↔
      partner.pick state.stdColumns = row.pick state.stdColumns := by
  have compared {column : String} (isKey : column ∈ state.keyColumns) :
      compareValues .eq (partner.get column) (row.get column) = some true ↔
        partner.get column = row.get column := by
    have isStd := key_columns_std state isKey
    rw [← Row.get_pick isStd partner, ← Row.get_pick isStd row]
    exact is.equal_columns partnerInside rowInside isStd
  have sameKey : partner.pick state.stdColumns = row.pick state.stdColumns ↔
      ∀ column ∈ state.keyColumns, partner.get column = row.get column := by
    constructor
    · exact fun same column isKey => Row.pick_eq_iff.mp same column (key_columns_std state isKey)
    · intro same
      refine is.eq_of_key partnerInside rowInside fun column isKey => ?_
      have isStd := key_columns_std state isKey
      rw [Row.get_pick isStd, Row.get_pick isStd, same column isKey]
  rw [sameKey]
  unfold partnerOn
  unfold QueryState.keyColumns at compared ⊢
  split
  · rename_i isText
    simp only [isText, if_true] at compared ⊢
    have byData := compared List.mem_cons_self
    have byFile := compared (List.mem_cons_of_mem _ List.mem_cons_self)
    simp [Expr.holds, Expr.eval, equals, CteRef.column, Scope.get, table_cons_of_ne apart.symm,
      byData, byFile, and_comm]
  · rename_i isFile
    simp only [isFile] at compared ⊢
    have byFile := compared List.mem_cons_self
    simp [Expr.holds, Expr.eval, equals, CteRef.column, Scope.get, table_cons_of_ne apart.symm,
      byFile]

omit apart rowInside in
theorem partner_not_null : (Expr.isNull (sub.column (partnerColumn state))).holds dialect tables
      [(sub.name, partner), (context.name, row)] = false := by
  have isStd := key_columns_std state (partner_column_key state)
  obtain ⟨number, isInt⟩ := is.integers _ partnerInside _ isStd
  rw [Row.get_pick isStd] at isInt
  simp [Expr.holds, Expr.eval, CteRef.column, Scope.get, isInt]

end AntiJoin

theorem absent_partner (row : Row) : (Expr.isNull (sub.column (partnerColumn state))).holds dialect tables
      [(sub.name, []), (context.name, row)] = true := by
  simp [Expr.holds, Expr.eval, CteRef.column, Scope.get, Row.get]

section AntiJoinRows

variable {entities : List Row} (is : Entities state entities) (apart : sub.name ≠ context.name)
  (contextInside : state.held dialect tables context ⊆ entities)
  (subInside : state.held dialect tables sub ⊆ entities)

include is apart contextInside subInside

/-- A context row keeps one scope when nothing in `sub` is that row, and none
otherwise. -/
theorem anti_join_scopes {row : Row} (member : row ∈ state.bound dialect tables context.name) :
    (antiJoin context sub state).core.scopesOf dialect (state.bound dialect tables) row =
      if row.pick state.stdColumns ∈ state.held dialect tables sub then []
      else [[(sub.name, []), (context.name, row)]] := by
  have rowInside := contextInside (List.mem_map_of_mem member)
  have partnerInside : ∀ partner ∈ state.bound dialect tables sub.name,
      partner.pick state.stdColumns ∈ entities :=
    fun partner isPartner => subInside (List.mem_map_of_mem isPartner)
  let partners := (state.bound dialect tables sub.name).filter fun partner =>
    (partnerOn context sub state).holds dialect (state.bound dialect tables)
      [(sub.name, partner), (context.name, row)]
  have matched : (leftJoin sub.name (partnerOn context sub state)).matched dialect
      (state.bound dialect tables) [(context.name, row)] =
        partners.map fun partner => [(sub.name, partner), (context.name, row)] := by
    simp only [Join.matched, leftJoin, List.filter_map, Function.comp_def, partners]
  have found : row.pick state.stdColumns ∈ state.held dialect tables sub ↔ partners ≠ [] := by
    constructor
    · intro held
      obtain ⟨partner, isPartner, same⟩ := List.mem_map.mp held
      exact List.ne_nil_of_mem (List.mem_filter.mpr ⟨isPartner,
        (partner_holds is apart rowInside (partnerInside partner isPartner)).mpr same⟩)
    · intro some
      obtain ⟨partner, isFound⟩ := List.exists_mem_of_ne_nil _ some
      obtain ⟨isPartner, holds⟩ := List.mem_filter.mp isFound
      exact List.mem_map.mpr ⟨partner, isPartner,
        (partner_holds is apart rowInside (partnerInside partner isPartner)).mp holds⟩
  have dropped : (partners.map fun partner => [(sub.name, partner), (context.name, row)]).filter
      (fun scope => (Expr.isNull (sub.column (partnerColumn state))).holds dialect
        (state.bound dialect tables) scope) = [] := by
    refine List.filter_eq_nil_iff.mpr (List.forall_mem_map.mpr fun partner isFound => ?_)
    rw [partner_not_null is (partnerInside partner (List.mem_filter.mp isFound).1)]
    exact Bool.false_ne_true
  have extended : (leftJoin sub.name (partnerOn context sub state)).extend dialect
      (state.bound dialect tables) [(context.name, row)] =
        if partners = [] then [[(sub.name, []), (context.name, row)]]
        else partners.map fun partner => [(sub.name, partner), (context.name, row)] := by
    unfold Join.extend
    rw [matched]
    simp [leftJoin]
  have scopes : (antiJoin context sub state).core.scopesOf dialect (state.bound dialect tables)
      row = ((leftJoin sub.name (partnerOn context sub state)).extend dialect
        (state.bound dialect tables) [(context.name, row)]).filter fun scope =>
          (Expr.isNull (sub.column (partnerColumn state))).holds dialect
            (state.bound dialect tables) scope := by
    rw [anti_join_core]
    simp [SelectCore.scopesOf, joinAll, selectStdFromCte]
  rw [scopes, extended]
  by_cases some : partners = []
  · rw [if_pos some, if_neg fun held => found.mp held some, List.filter_singleton,
      absent_partner]
    rfl
  · rw [if_neg some, if_pos (found.mpr some), dropped]

theorem anti_join_held (registered : registerOwn state kind (antiJoin context sub state) = (cte, after)) :
    after.held dialect tables cte = (state.held dialect tables context).filter
      fun entity => entity ∉ state.held dialect tables sub := by
  let core := (antiJoin context sub state).core
  have scopes : ∀ row ∈ state.bound dialect tables context.name,
      core.scopesOf dialect (state.bound dialect tables) row =
        if row.pick state.stdColumns ∈ state.held dialect tables sub then []
        else [[(sub.name, []), (context.name, row)]] :=
    fun row member => anti_join_scopes is apart contextInside subInside member
  have isLocal : core.Local dialect (state.bound dialect tables) := by
    refine SelectCore.local_of_at_most_one rfl fun row member => ?_
    rw [scopes row member]
    split <;> simp
  have fresh : core.sourceName ∉ core.joins.map Join.name := by
    simpa [core, anti_join_core, leftJoin, selectStdFromCte] using apart.symm
  have kept : (state.bound dialect tables context.name).filter
      (core.contributes dialect (state.bound dialect tables)) =
        (state.bound dialect tables context.name).filter fun row =>
          row.pick state.stdColumns ∉ state.held dialect tables sub := by
    refine List.filter_congr fun row member => ?_
    have noHaving : core.having = [] := rfl
    rw [SelectCore.contributes, scopes row member, noHaving]
    split <;> simp_all
  have picked : (core.rows dialect (state.bound dialect tables)).map (Row.pick state.stdColumns) =
      ((state.bound dialect tables context.name).filter
        (core.contributes dialect (state.bound dialect tables))).map (Row.pick state.stdColumns) :=
    SelectCore.rows_of_local isLocal fresh rfl (List.append_nil _).symm
  have rows : (antiJoin context sub state).rows dialect (state.bound dialect tables) =
      core.rows dialect (state.bound dialect tables) := rfl
  rw [held_of_registered registered, rows, picked, kept]
  unfold QueryState.held
  rw [List.filter_map]
  rfl

end AntiJoinRows

end Connectives

section Meaning

variable (meaning : Filter → Row → Prop)

mutual

/-- Ordinary boolean meaning. -/
def QueryElement.Satisfied : QueryElement → Row → Prop
  | .and_ operands, entity => AllSatisfied operands entity
  | .or_ operands, entity => AnySatisfied operands entity
  | .not_ operand, entity => ¬operand.Satisfied entity
  | .filter filter, entity => meaning filter entity

def AllSatisfied : List QueryElement → Row → Prop
  | [], _ => True
  | operand :: rest, entity => operand.Satisfied entity ∧ AllSatisfied rest entity

def AnySatisfied : List QueryElement → Row → Prop
  | [], _ => False
  | operand :: rest, entity => operand.Satisfied entity ∨ AnySatisfied rest entity

end

end Meaning

mutual

def QueryElement.leaves : QueryElement → List Filter
  | .and_ operands | .or_ operands => allLeaves operands
  | .not_ operand => operand.leaves
  | .filter filter => [filter]

def allLeaves : List QueryElement → List Filter
  | [] => []
  | operand :: rest => operand.leaves ++ allLeaves rest

end

/-- What a filter is compiled in: a query of this kind, and a context that holds
rows of the query, each once. -/
structure Contexts (dialect : Dialect) (database : Database) (mode : BuildMode)
    (entity : EntityType) (context : CteRef) (state : QueryState) : Prop where
  ready : Ready context state
  grown : Grown (beginState mode entity) state
  distinct : (state.held dialect database.tables context).Nodup
  inside : state.held dialect database.tables context ⊆ beginEntities dialect database mode entity

/-- The filter compiles, in any context CTE, to a CTE that holds exactly the
context's rows that satisfy it, each once. -/
def LeafExact (dialect : Dialect) (database : Database) (floats : FloatText) (mode : BuildMode)
    (entity : EntityType) (meaning : Row → Prop) (filter : Filter) : Prop :=
  ∀ context state cte after, Contexts dialect database mode entity context state →
    filter.build floats context state = .ok (cte, after) →
    Restricts (after.held dialect database.tables cte) (state.held dialect database.tables context)
      meaning

section Trees

variable {dialect : Dialect} {database : Database} {floats : FloatText} {mode : BuildMode}
  {entity : EntityType} {meaning : Filter → Row → Prop} {context cte : CteRef}
  {state after : QueryState}

theorem entities_of_grown (grown : Grown (beginState mode entity) state) :
    Entities state (beginEntities dialect database mode entity) := by
  have is : Entities (beginState mode entity) (beginEntities dialect database mode entity) :=
    begin_entities mode entity
  have std : state.stdColumns = (beginState mode entity).stdColumns := by
    simp only [QueryState.stdColumns, grown.itemDataQuery]
  have keys : state.keyColumns = (beginState mode entity).keyColumns := by
    simp only [QueryState.keyColumns, grown.itemDataQuery]
  exact ⟨std ▸ is.integers, std ▸ is.picked, keys ▸ is.distinct⟩

theorem Contexts.after_element (contexts : Contexts dialect database mode entity context state)
    (grown : Grown state after) (ready : Ready context after) :
    Contexts dialect database mode entity context after ∧
      after.held dialect database.tables context = state.held dialect database.tables context := by
  have same : after.held dialect database.tables context =
      state.held dialect database.tables context :=
    held_grown ready.opened.ordered grown contexts.ready.defined
  exact ⟨⟨ready, contexts.grown.trans grown, same ▸ contexts.distinct, same ▸ contexts.inside⟩, same⟩

theorem Contexts.of_restriction {holds : Row → Prop}
    (contexts : Contexts dialect database mode entity context state) (compiled : Compiled state cte after)
    (restricts : Restricts (after.held dialect database.tables cte)
      (state.held dialect database.tables context) holds) :
    Contexts dialect database mode entity cte after :=
  ⟨compiled.ready, contexts.grown.trans compiled.grown, restricts.distinct,
    List.Subset.trans restricts.subset contexts.inside⟩

/-- Every operand of an Or restricts the context by its meaning. -/
def AllRestrict (dialect : Dialect) (database : Database) (meaning : Filter → Row → Prop)
    (whole : List Row) (after : QueryState) (operands : List QueryElement)
    (subs : List CteRef) : Prop :=
  List.Forall₂ (fun operand sub => Restricts (after.held dialect database.tables sub) whole
    (operand.Satisfied meaning)) operands subs

section

variable {whole : List Row} {operands : List QueryElement} {subs : List CteRef} (restrict : AllRestrict
    dialect database meaning whole after operands subs)

include restrict

theorem AllRestrict.of_member
    {sub : CteRef} (member : sub ∈ subs) : (after.held dialect database.tables sub).Nodup ∧
      after.held dialect database.tables sub ⊆ whole := by
  induction restrict with
  | nil => cases member
  | cons first _ ih =>
    rcases List.mem_cons.mp member with rfl | later
    · exact ⟨first.distinct, first.subset⟩
    · exact ih later

theorem any_satisfied_iff (elem : Row) : (∃ sub ∈ subs, elem ∈ after.held dialect database.tables sub) ↔
      elem ∈ whole ∧ AnySatisfied meaning operands elem := by
  induction restrict with
  | nil => simp [AnySatisfied]
  | cons first _ ih =>
    simp only [List.exists_mem_cons_iff, AnySatisfied, ih, first.exact]
    exact (and_or_left).symm

end

mutual

theorem element_restricts : ∀ (element : QueryElement) {context cte : CteRef}
    {state after : QueryState}, element.Preprocessed →
    (∀ filter ∈ element.leaves, LeafExact dialect database floats mode entity (meaning filter) filter) →
    Contexts dialect database mode entity context state →
    processQueryElement floats element context state = .ok (cte, after) →
    Restricts (after.held dialect database.tables cte)
      (state.held dialect database.tables context) (element.Satisfied meaning)
  | .and_ operands, context, cte, state, after, shape, exact_, contexts, returned => by
      rw [processQueryElement] at returned
      exact and_restricts operands shape.2 exact_ contexts returned
  | .or_ operands, context, cte, state, after, shape, exact_, contexts, returned => by
      rw [processQueryElement] at returned
      obtain ⟨⟨subs, middle⟩, processed, registered⟩ := bind_ok returned
      obtain ⟨compiled, restrict⟩ := or_restricts operands shape.2 exact_ contexts processed
      match subs, registered with
      | first :: rest, registered =>
        have inside : ∀ sub ∈ first :: rest, (middle.held dialect database.tables sub).Nodup ∧
            middle.held dialect database.tables sub ⊆
              beginEntities dialect database mode entity := by
          intro sub member
          obtain ⟨distinct, subset⟩ := restrict.of_member member
          exact ⟨distinct, List.Subset.trans subset contexts.inside⟩
        obtain ⟨distinct, united⟩ := union_held
          (entities_of_grown (contexts.grown.trans compiled.grown)) inside
          (Except.ok.inj registered)
        exact ⟨distinct, fun elem => (united elem).trans (any_satisfied_iff restrict elem)⟩
  | .not_ operand, context, cte, state, after, shape, exact_, contexts, returned => by
      rw [processQueryElement] at returned
      obtain ⟨⟨sub, middle⟩, processed, registered⟩ := bind_ok returned
      have operandShape : operand.Preprocessed := shape
      have compiled := element_compiled floats operand operandShape contexts.ready processed
      have inner := element_restricts operand operandShape exact_ contexts processed
      obtain ⟨still, same⟩ := contexts.after_element compiled.grown
        (compiled.context_ready contexts.ready)
      have apart : sub.name ≠ context.name :=
        fun equal => compiled.fresh (equal ▸ contexts.ready.defined)
      rw [anti_join_held (entities_of_grown (contexts.grown.trans compiled.grown)) apart
        still.inside (List.Subset.trans inner.subset contexts.inside) (Except.ok.inj registered), same]
      exact inner.difference contexts.distinct fun _ => decide_eq_true_iff
  | .filter filter, context, cte, state, after, _, exact_, contexts, returned => by
      rw [processQueryElement] at returned
      exact exact_ filter (List.mem_singleton_self filter) _ _ _ _ contexts returned

theorem and_restricts : ∀ (operands : List QueryElement) {context cte : CteRef}
    {state after : QueryState}, AllPreprocessed operands →
    (∀ filter ∈ allLeaves operands, LeafExact dialect database floats mode entity (meaning filter) filter) →
    Contexts dialect database mode entity context state →
    processAnd floats operands context state = .ok (cte, after) →
    Restricts (after.held dialect database.tables cte)
      (state.held dialect database.tables context) (AllSatisfied meaning operands)
  | [], context, cte, state, after, _, _, contexts, returned => by
      rw [processAnd] at returned
      cases returned
      exact Restricts.refl contexts.distinct
  | operand :: rest, context, cte, state, after, all, exact_, contexts, returned => by
      rw [processAnd] at returned
      obtain ⟨⟨current, middle⟩, processed, later⟩ := bind_ok returned
      have compiled := element_compiled floats operand all.1 contexts.ready processed
      have first := element_restricts operand all.1
        (fun filter member => exact_ filter (List.mem_append_left _ member)) contexts processed
      have others := and_restricts rest all.2
        (fun filter member => exact_ filter (List.mem_append_right _ member))
        (contexts.of_restriction compiled first) later
      exact others.trans first

theorem or_restricts : ∀ (operands : List QueryElement) {context : CteRef} {subs : List CteRef}
    {state after : QueryState}, AllPreprocessed operands →
    (∀ filter ∈ allLeaves operands, LeafExact dialect database floats mode entity (meaning filter) filter) →
    Contexts dialect database mode entity context state →
    processOr floats operands context state = .ok (subs, after) →
    AllCompiled state subs after ∧ AllRestrict dialect database meaning
      (state.held dialect database.tables context) after operands subs
  | [], context, subs, state, after, _, _, contexts, returned => by
      have compiled := or_ready floats [] contexts.ready returned
      rw [processOr] at returned
      cases returned
      exact ⟨compiled, List.Forall₂.nil⟩
  | operand :: rest, context, subs, state, after, all, exact_, contexts, returned => by
      have together := or_ready floats (operand :: rest) contexts.ready returned
      rw [processOr] at returned
      obtain ⟨⟨sub, middle⟩, processed, later⟩ := bind_ok returned
      obtain ⟨⟨others, last⟩, restProcessed, joined⟩ := bind_ok later
      cases joined
      have compiled := element_compiled floats operand all.1 contexts.ready processed
      have first := element_restricts operand all.1
        (fun filter member => exact_ filter (List.mem_append_left _ member)) contexts processed
      obtain ⟨still, same⟩ := contexts.after_element compiled.grown
        (compiled.context_ready contexts.ready)
      obtain ⟨restCompiled, restRestrict⟩ := or_restricts rest all.2
        (fun filter member => exact_ filter (List.mem_append_right _ member)) still restProcessed
      refine ⟨together, List.Forall₂.cons ?_ (same ▸ restRestrict)⟩
      rw [held_grown restCompiled.opened.ordered restCompiled.grown compiled.ready.defined]
      exact first

end

end Trees

end Panoptikon.Pql
