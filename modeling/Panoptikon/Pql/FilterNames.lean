import Panoptikon.Pql.Naming

/-!
# The names of each filter

Every filter, compiled in a context that is ready for it, adds CTEs under new
names that mention base tables, local aliases and names defined before.
-/

namespace Panoptikon.Pql

open Foundation Foundation.Sql

section Parts

variable {defined : List String} {context : CteRef} {state : QueryState}

@[simp] theorem equals_within {left right : Expr} :
    ExprWithin defined (equals left right) ↔ ExprWithin defined left ∧ ExprWithin defined right :=
  Iff.rfl

@[simp] theorem column_within {table name : String} :
    ExprWithin defined (.column table name) ↔ Nameable defined table := Iff.rfl

@[simp] theorem cte_column_within {name : String} :
    ExprWithin defined (context.column name) ↔ Nameable defined context.name := Iff.rfl

theorem column_fixed {table name : String} (fixed : table ∈ baseTables ++ localNames) :
    ExprWithin defined (.column table name) := nameable_fixed fixed

theorem nothing_within : ∀ expr ∈ ([] : List Expr), ExprWithin defined expr :=
  nofun

theorem positive_int_within {column : Expr} (within : ExprWithin defined column)
    (comparison : Comparison) (bound : Option Int) :
    ∀ condition ∈ positiveInt column comparison bound, ExprWithin defined condition := by
  intro condition member
  unfold positiveInt at member
  split at member
  · split at member
    · rw [List.mem_singleton.mp member]
      exact ⟨within, trivial⟩
    · cases member
  · cases member

theorem positive_real_within {column : Expr} (within : ExprWithin defined column)
    (comparison : Comparison) (bound : Option ℚ) :
    ∀ condition ∈ positiveReal column comparison bound, ExprWithin defined condition := by
  intro condition member
  unfold positiveReal at member
  split at member
  · split at member
    · rw [List.mem_singleton.mp member]
      exact ⟨within, trivial⟩
    · cases member
  · cases member

theorem in_texts_unless_empty_within {operand : Expr} (within : ExprWithin defined operand)
    (texts : List String) : ∀ condition ∈ inTextsUnlessEmpty operand texts, ExprWithin defined condition := by
  intro condition member
  unfold inTextsUnlessEmpty at member
  split at member
  · cases member
  · rw [List.mem_singleton.mp member]
    exact within

theorem std_items_within (named : Nameable defined context.name) :
    ∀ item ∈ stdItems context state, item.Within (Readable defined) (Nameable defined) := by
  intro item member
  obtain ⟨column, _, rfl⟩ := List.mem_map.mp member
  exact named

theorem std_group_by_within (named : Nameable defined context.name) :
    ∀ expr ∈ getStdGroupBy context state, ExprWithin defined expr := by
  intro expr member
  unfold getStdGroupBy at member
  split at member
  · rcases List.mem_cons.mp member with rfl | other
    · exact named
    · rw [List.mem_singleton.mp other]
      exact named
  · rw [List.mem_singleton.mp member]
    exact named

theorem std_within (member : context.name ∈ defined) {joins : List Join} {conditions groupBy having : List Expr}
    (joinsWithin : ∀ join ∈ joins, join.Within (Readable defined) (Nameable defined))
    (conditionsWithin : ∀ condition ∈ conditions, ExprWithin defined condition)
    (groupByWithin : ∀ expr ∈ groupBy, ExprWithin defined expr)
    (havingWithin : ∀ condition ∈ having, ExprWithin defined condition) : CoreWithin defined
      { selectStdFromCte context state with joins, conditions, groupBy, having } where
  source := readable_defined member
  sourceName := nameable_defined member
  items := std_items_within (nameable_defined member)
  joins := joinsWithin
  conditions := conditionsWithin
  groupBy := groupByWithin
  having := havingWithin
  orderBy _ absent := absurd absent List.not_mem_nil

variable {core : SelectCore}

theorem grouped_within (within : CoreWithin defined core) (named : Nameable defined context.name) :
    CoreWithin defined { core with groupBy := getStdGroupBy context state } :=
  { within with groupBy := std_group_by_within named }

theorem with_items_within {items : List Item} (within : CoreWithin defined core)
    (itemsWithin : ∀ item ∈ items, item.Within (Readable defined) (Nameable defined)) :
    CoreWithin defined { core with items := core.items ++ items } :=
  { within with
    items := fun item member =>
      (List.mem_append.mp member).elim (within.items item) (itemsWithin item) }

theorem add_rank_column_within {rank : Expr} (within : CoreWithin defined core)
    (rankWithin : ExprWithin defined rank) (sort : SortableOptions) :
    CoreWithin defined (addRankColumnExpr core sort rank) := by
  unfold addRankColumnExpr
  split
  · refine with_items_within within fun item member => ?_
    rw [List.mem_singleton.mp member]
    exact ⟨nofun,
      fun term isTerm => List.mem_singleton.mp isTerm ▸ rankWithin⟩
  · exact with_items_within within fun item member => List.mem_singleton.mp member ▸ rankWithin

end Parts

section MatchNames

variable {defined : List String}

variable {exprs : List Expr}

theorem fold_within {connective : Expr → Expr → Expr}
    (joined : ∀ left right, ExprWithin defined left → ExprWithin defined right →
      ExprWithin defined (connective left right)) {start : Expr}
    (startWithin : ExprWithin defined start) (within : ∀ expr ∈ exprs, ExprWithin defined expr) :
    ExprWithin defined (exprs.foldl connective start) := by
  induction exprs generalizing start with
  | nil => exact startWithin
  | cons first rest ih =>
    exact ih (joined _ _ startWithin (within first List.mem_cons_self))
      fun expr member => within expr (List.mem_cons_of_mem _ member)

theorem combine_within {connective : Expr → Expr → Expr}
    (joined : ∀ left right, ExprWithin defined left → ExprWithin defined right →
      ExprWithin defined (connective left right)) {combined : Expr}
    (built : combine connective exprs = .ok combined)
    (within : ∀ expr ∈ exprs, ExprWithin defined expr) : ExprWithin defined combined := by
  cases exprs with
  | nil => cases built
  | cons first rest =>
    cases built
    exact fold_within joined (within first List.mem_cons_self)
      fun expr member => within expr (List.mem_cons_of_mem _ member)

theorem column_expr_within (column : Column) : ExprWithin defined column.expr :=
  nameable_fixed (by cases column <;> decide)

variable {allowText : Bool}

theorem match_value_expressions_within {values : MatchValue} {operator : MatchOp}
    (built : buildMatchValueExpressions values operator allowText = .ok exprs) :
    ∀ expr ∈ exprs, ExprWithin defined expr := by
  refine mapM_forall built fun ⟨column, value⟩ expr step => ?_
  dsimp only at step
  split at step
  · cases step
  · cases operator <;> cases step <;> exact ⟨column_expr_within column, trivial⟩

variable {floats : FloatText}

theorem build_like_within {column expr : Expr} {values : FieldValues}
    {kind : LikeKind} {negate : Bool} (within : ExprWithin defined column)
    (built : buildLikeExpression floats column values kind negate = .ok expr) : ExprWithin defined expr := by
  unfold buildLikeExpression at built
  cases values with
  | single value =>
    cases built
    dsimp only
    split <;> exact within
  | many values =>
    dsimp only at built
    split at built
    · exact combine_within (fun _ _ => And.intro) built
        (List.forall_mem_map.mpr fun _ _ => within)
    · exact combine_within (fun _ _ => And.intro) built
        (List.forall_mem_map.mpr fun _ _ => within)

theorem build_in_within {column expr : Expr} {values : FieldValues} {negate : Bool}
    (within : ExprWithin defined column)
    (built : buildInExpression column values negate = .ok expr) : ExprWithin defined expr := by
  unfold buildInExpression at built
  cases values with
  | single value => cases built
  | many values =>
    dsimp only at built
    split at built
    · cases built
    · split at built <;> cases built <;> exact within

theorem match_values_expressions_within {values : MatchValues} {operator : MatchOp}
    (built : buildMatchValuesExpressions floats values operator allowText = .ok exprs) :
    ∀ expr ∈ exprs, ExprWithin defined expr := by
  refine mapM_forall built fun ⟨column, value⟩ expr step => ?_
  have within : ExprWithin defined column.expr := column_expr_within column
  dsimp only at step
  split at step
  · cases step
  · cases operator <;>
      first
      | exact build_in_within within step
      | exact build_like_within within step
      | cases step

theorem match_ops_within {ops : MatchOps} {expr : Expr}
    (built : buildMatchOpsExpression floats ops allowText = .ok expr) : ExprWithin defined expr := by
  obtain ⟨lists, each, combined⟩ := bind_ok built
  have all : ∀ exprs ∈ lists, ∀ expr ∈ exprs, ExprWithin defined expr :=
    mapM_forall each fun entry exprs step => by
      obtain ⟨op, operand⟩ := entry
      cases operand with
      | value values => exact match_value_expressions_within step
      | list values => exact match_values_expressions_within step
  split at combined
  · cases combined
  · refine combine_within (fun _ _ => And.intro) combined fun expr member => ?_
    obtain ⟨exprs, isList, inside⟩ := List.mem_flatten.mp member
    exact all exprs isList expr inside

theorem matches_within {matches_ : Matches} {expr : Expr}
    (built : buildMatchesExpression floats matches_ allowText = .ok expr) : ExprWithin defined expr := by
  cases matches_ with
  | ops ops => exact match_ops_within built
  | and_ | or_ =>
    obtain ⟨exprs, each, combined⟩ := bind_ok built
    exact combine_within (fun _ _ => And.intro) combined
      (mapM_forall each fun _ _ step => match_ops_within step)
  | not_ operand =>
    obtain ⟨inner, step, returned⟩ := bind_ok built
    cases returned
    have within : ExprWithin defined inner := match_ops_within step
    exact within

end MatchNames

section Filters

variable {context cte : CteRef} {state after : QueryState}

theorem Ready.named (ready : Ready context state) :
    Nameable (namesOf state.ctes) context.name := nameable_defined ready.defined

theorem restriction_compiled (ready : Ready context state) (kind : String) {query : SelectCore}
    {joinedTables : JoinedTables} (within : CoreWithin (namesOf state.ctes) query)
    (wrapped : wrapUnsorted state query context (state.cteName kind) joinedTables = (cte, after)) :
    Compiled state cte after :=
  wrap_unsorted_compiled kind wrapped ready.staged List.not_mem_nil within ready.named

theorem sorted_restriction_compiled (ready : Ready context state) (kind : String)
    {query : SelectCore} {sort : SortableOptions} {joinedTables : JoinedTables}
    (within : CoreWithin (namesOf state.ctes) query)
    (wrapped : wrapSorted state query context (state.cteName kind) sort joinedTables =
      (cte, after)) : Compiled state cte after :=
  wrap_sorted_compiled kind wrapped ready.staged List.not_mem_nil List.not_mem_nil within
    ready.named

theorem ready_user_data (ready : Ready context state) : Ready context { state with usesUserData := true } :=
  ⟨ready.opened.congr rfl rfl, ready.outputs.grow rfl rfl (List.prefix_refl _), ready.defined⟩

theorem Compiled.of_user_data (compiled : Compiled { state with usesUserData := true } cte after) :
    Compiled state cte after :=
  compiled.after_growth ⟨List.prefix_refl _, rfl, rfl, rfl⟩

theorem Match.build_compiled {floats : FloatText} {filter : Match} (ready : Ready context state)
    (built : filter.build floats context state = .ok (cte, after)) : Compiled state cte after := by
  obtain ⟨expression, expressionBuilt, wrapped⟩ := bind_ok built
  have named := ready.named
  refine restriction_compiled ready "Match" (std_within ready.defined ?_ ?_ ?_ ?_)
    (Except.ok.inj wrapped)
  · split <;> simp (disch := decide) [Join.Within, innerJoin, nameable_fixed, readable_base, named]
  · exact fun condition member => List.mem_singleton.mp member ▸ matches_within expressionBuilt
  · exact nothing_within
  · exact nothing_within

theorem MatchPath.build_compiled {filter : MatchPath} (ready : Ready context state)
    (built : filter.build context state = .ok (cte, after)) : Compiled state cte after := by
  have named := ready.named
  have within : CoreWithin (namesOf state.ctes) { selectStdFromCte context state with
      joins := [innerJoin "files_path_fts"
        (equals (.column "files_path_fts" "rowid") (context.column "file_id"))]
      conditions := [.fullText "files_path_fts"
        (if filter.matchPath.filenameOnly then "filename" else "path")
        (.text filter.matchPath.match_)] } := by
    refine std_within ready.defined ?_ ?_ nothing_within nothing_within
    · simp (disch := decide) [Join.Within, innerJoin, nameable_fixed, readable_base, named]
    · simp (disch := decide) [Expr.Within, nameable_fixed]
  refine sorted_restriction_compiled ready "MatchPath" ?_ (Except.ok.inj built)
  split
  · exact within
  · have rank : ExprWithin (namesOf state.ctes) (.bare "rank") := trivial
    exact add_rank_column_within within rank filter.sort

theorem ProcessedBy.build_compiled {filter : ProcessedBy} (ready : Ready context state)
    (built : filter.build context state = .ok (cte, after)) : Compiled state cte after := by
  have named := ready.named
  refine restriction_compiled ready "ProcessedBy" (std_within ready.defined ?_ ?_
    (std_group_by_within named) nothing_within) (Except.ok.inj built)
  · split <;> simp (disch := decide) [Join.Within, innerJoin, nameable_fixed, readable_base, named]
  · simp (disch := decide) [Expr.Within, nameable_fixed]

theorem FailedFor.build_compiled {filter : FailedFor} (ready : Ready context state)
    (built : filter.build context state = .ok (cte, after)) : Compiled state cte after := by
  have named := ready.named
  refine restriction_compiled ready "FailedFor" (std_within ready.defined ?_ ?_
    (std_group_by_within named) nothing_within) (Except.ok.inj built)
  · simp (disch := decide) [Join.Within, innerJoin, innerJoinAs, nameable_fixed, readable_base,
      named]
  · simp (disch := decide) [Expr.Within, nameable_fixed]

theorem HasUnprocessedData.build_compiled {filter : HasUnprocessedData}
    (ready : Ready context state) (built : filter.build context state = .ok (cte, after)) :
    Compiled state cte after := by
  have named := ready.named
  refine restriction_compiled ready "HasUnprocessedData" (std_within ready.defined ?_ ?_
    (std_group_by_within named) nothing_within) (Except.ok.inj built)
  · simp (disch := decide) [Join.Within, innerJoinAs, nameable_fixed, readable_base, named]
  · simp (disch := decide) [Expr.Within, inTexts, equals, nameable_fixed, readable_base]

theorem InPinboard.build_compiled {filter : InPinboard} (ready : Ready context state)
    (built : filter.build context state = .ok (cte, after)) : Compiled state cte after := by
  have named := (ready_user_data ready).named
  refine (restriction_compiled (ready_user_data ready) "InPinboard" (std_within
    (ready_user_data ready).defined ?_ ?_ (std_group_by_within named) nothing_within)
    (Except.ok.inj built)).of_user_data
  · simp (disch := decide) [Join.Within, innerJoin, nameable_fixed, readable_base, named]
  · split <;> simp (disch := decide) [Expr.Within, nameable_fixed]

variable {defined : List String}

theorem InBookmarks.criteria_within (filter : InBookmarks) :
    ∀ condition ∈ filter.criteria, ExprWithin defined condition := by
  have bookmarks : Nameable defined "user_data.bookmarks" := nameable_fixed (by decide)
  unfold criteria
  refine List.forall_mem_append.mpr ⟨?_, List.forall_mem_singleton.mpr bookmarks⟩
  split
  · exact nothing_within
  · split
    · refine List.forall_mem_singleton.mpr (fold_within (fun _ _ => And.intro) bookmarks ?_)
      exact List.forall_mem_map.mpr fun _ _ => bookmarks
    · exact List.forall_mem_singleton.mpr bookmarks

theorem InBookmarks.build_compiled {filter : InBookmarks} (ready : Ready context state)
    (built : filter.build context state = .ok (cte, after)) : Compiled state cte after := by
  have named := (ready_user_data ready).named
  have within : CoreWithin (namesOf state.ctes) { selectStdFromCte context
      { state with usesUserData := true } with
      joins :=
        [innerJoin "files" (equals (.column "files" "id") (context.column "file_id")),
         innerJoin "user_data.bookmarks"
          (equals (.column "user_data.bookmarks" "sha256") (.column "files" "sha256"))]
      conditions := filter.criteria
      groupBy := getStdGroupBy context { state with usesUserData := true } } := by
    refine std_within ready.defined ?_ filter.criteria_within (std_group_by_within named)
      nothing_within
    simp (disch := decide) [Join.Within, innerJoin, nameable_fixed, readable_base, named]
  refine (sorted_restriction_compiled (ready_user_data ready) "InBookmarks" ?_
    (Except.ok.inj built)).of_user_data
  split
  · exact within
  · refine add_rank_column_within within ?_ filter.sort
    split
    · exact nameable_fixed (by decide)
    · trivial

namespace MatchTags

theorem conditions_within (filter : MatchTags) : ∀ condition ∈ filter.conditions, ExprWithin defined condition := by
  have tags : Nameable defined "tags" := nameable_fixed (by decide)
  unfold conditions
  simp only [List.forall_mem_append]
  refine ⟨⟨⟨List.forall_mem_singleton.mpr tags, positive_real_within ?_ _ _⟩,
    in_texts_unless_empty_within ?_ _⟩, ?_⟩
  · exact nameable_fixed (by decide)
  · exact nameable_fixed (by decide)
  · split
    · exact nothing_within
    · refine List.forall_mem_singleton.mpr (fold_within (fun _ _ => And.intro) tags ?_)
      exact List.forall_mem_map.mpr fun _ _ => tags

theorem having_within (filter : MatchTags) : ∀ condition ∈ filter.having, ExprWithin defined condition := by
  unfold having
  dsimp only
  split
  · exact nothing_within
  · refine List.forall_mem_singleton.mpr ?_
    split <;> simp (disch := decide) [Expr.Within, nameable_fixed]

theorem matching_items_within (ready : Ready context state) (filter : MatchTags) :
    CoreWithin (namesOf state.ctes) (filter.matchingItems context state) := by
  have named := ready.named
  have within : CoreWithin (namesOf state.ctes) { selectStdFromCte context state with
      joins :=
        [innerJoin "item_data" (.and
          (equals (.column "item_data" "item_id") (context.column "item_id"))
          (equals (.column "item_data" "data_type") (.val (.text "tags")))),
         innerJoin "setters" (equals (.column "setters" "id") (.column "item_data" "setter_id")),
         innerJoin "tags_items"
          (equals (.column "tags_items" "item_data_id") (.column "item_data" "id")),
         innerJoin "tags" (equals (.column "tags" "id") (.column "tags_items" "tag_id"))]
      conditions := filter.conditions
      groupBy := getStdGroupBy context state
      having := filter.having } := by
    refine std_within ready.defined ?_ filter.conditions_within (std_group_by_within named)
      filter.having_within
    simp (disch := decide) [Join.Within, innerJoin, Expr.Within, equals, CteRef.column,
      nameable_fixed, readable_base, named]
  unfold matchingItems
  dsimp only
  split
  · exact within
  · have rank : ExprWithin (namesOf state.ctes)
        (.aggregate "avg" (.column "tags_items" "confidence")) := nameable_fixed (by decide)
    exact add_rank_column_within within rank filter.sort

theorem query_within {matching : CteRef} (member : context.name ∈ defined)
    (matchingMember : matching.name ∈ defined) : CoreWithin defined (query context matching state) := by
  have named := nameable_defined member
  have matchingNamed := nameable_defined matchingMember
  have joined : CoreWithin defined { selectStdFromCte context state with
      joins := [innerJoin matching.name
        (if state.itemDataQuery then equals (matching.column "data_id") (context.column "data_id")
          else equals (matching.column "file_id") (context.column "file_id"))] } := by
    refine std_within member (List.forall_mem_singleton.mpr
      ⟨readable_defined matchingMember, matchingNamed, ?_⟩) nothing_within nothing_within
      nothing_within
    split <;> exact ⟨matchingNamed, named⟩
  refine with_items_within joined fun item isItem => ?_
  split at isItem
  · cases isItem
  · exact List.mem_singleton.mp isItem ▸ matchingNamed

theorem build_compiled {filter : MatchTags} (ready : Ready context state)
    (built : filter.build context state = .ok (cte, after)) : Compiled state cte after := by
  have staged := ready.staged.create "match_" "MatchTags" (filter.matching_items_within ready)
    (by decide) List.not_mem_nil
  exact wrap_sorted_compiled "MatchTags" (Except.ok.inj built) staged (by decide) (by decide)
    (query_within (staged.subset ready.defined) (created_defined _ _))
    (nameable_defined (staged.subset ready.defined))

end MatchTags

namespace MatchText

theorem criteria_within (filter : MatchText) : ∀ condition ∈ filter.criteria, ExprWithin defined condition := by
  unfold criteria
  simp only [List.forall_mem_append]
  refine ⟨⟨⟨⟨⟨⟨?_, positive_int_within (column_fixed (by decide)) _ _⟩,
    positive_int_within (column_fixed (by decide)) _ _⟩,
    in_texts_unless_empty_within (column_fixed (by decide)) _⟩,
    in_texts_unless_empty_within (column_fixed (by decide)) _⟩,
    positive_real_within (column_fixed (by decide)) _ _⟩,
    positive_real_within (column_fixed (by decide)) _ _⟩
  split
  · exact nothing_within
  · exact List.forall_mem_singleton.mpr (nameable_fixed (by decide))

theorem file_query_within (ready : Ready context state) (filter : MatchText) :
    CoreWithin (namesOf state.ctes) (filter.fileQuery context state) := by
  have named := ready.named
  refine std_within ready.defined ?_ filter.criteria_within nothing_within nothing_within
  simp (disch := decide) [Join.Within, innerJoin, nameable_fixed, readable_base, named]

theorem text_query_within (ready : Ready context state) (filter : MatchText) :
    CoreWithin (namesOf state.ctes) (filter.textQuery context state) := by
  have named := ready.named
  refine std_within ready.defined ?_ filter.criteria_within nothing_within nothing_within
  simp (disch := decide) [Join.Within, innerJoin, nameable_fixed, readable_base, named]

theorem with_snippet_within (filter : MatchText) {query : SelectCore}
    (within : CoreWithin defined query) : CoreWithin defined (filter.withSnippet query) := by
  refine with_items_within within ?_
  simp (disch := decide) [Item.Within, snippetExpr, Expr.Within, argsWithin, nameable_fixed]

theorem rownum_within {source : CteRef} (member : source.name ∈ defined) : CoreWithin defined
      { items := [.star source.name,
          .rowNumber [source.column "file_id"] [{ expr := source.column "rank" }] "rn"]
        source := source.name, sourceName := source.name } :=
  { star_within member [] nothing_within with
    items := by
      have named := nameable_defined member
      simp [Item.Within, OrderTerm.Within, named] }

theorem rank_expr_within {rank : Expr} (filterOnly : Bool)
    (within : ExprWithin defined rank) : ExprWithin defined (if filterOnly then .val (.int 1) else rank) := by
  split
  · trivial
  · exact within

variable {filter : MatchText}

theorem plain_compiled (ready : Ready context state) {query : SelectCore}
    {rank : Expr} (within : CoreWithin (namesOf state.ctes) query)
    (rankWithin : ExprWithin (namesOf state.ctes) rank)
    (wrapped : wrapSorted state
      (if state.isCountQuery then query else addRankColumnExpr query filter.sort rank) context
      (state.cteName "MatchText") filter.sort joined = (cte, after)) :
    Compiled state cte after := by
  refine sorted_restriction_compiled ready "MatchText" ?_ wrapped
  split
  · exact within
  · exact add_rank_column_within within rankWithin filter.sort

theorem build_file_compiled (ready : Ready context state)
    (built : filter.buildFile context state = (cte, after)) : Compiled state cte after := by
  have rank : ExprWithin (namesOf state.ctes) (.aggregate "min" (.bare "rank")) := trivial
  unfold buildFile at built
  dsimp only at built
  split at built
  · have matchStaged := ready.staged.create "matchq_" "MatchText"
      (filter.with_snippet_within (filter.file_query_within ready)) (by decide) List.not_mem_nil
    have rownumStaged := matchStaged.create "rownum_" "MatchText"
      (rownum_within (created_defined _ _)) (by decide) (by decide)
    refine wrap_sorted_compiled "MatchText" built rownumStaged (by decide) (by decide)
      (add_rank_column_within (star_within (created_defined _ _) _ ?_) ?_ filter.sort)
      (nameable_defined (created_defined _ _))
    · exact List.forall_mem_singleton.mpr ⟨nameable_defined (created_defined _ _), trivial⟩
    · trivial
  · exact plain_compiled ready (grouped_within (filter.file_query_within ready) ready.named)
      (rank_expr_within _ rank) built

theorem build_text_compiled (ready : Ready context state)
    (built : filter.buildText context state = (cte, after)) : Compiled state cte after := by
  have rank {defined : List String} : ExprWithin defined (.bare "rank") := trivial
  unfold buildText at built
  dsimp only at built
  split at built
  · have staged := ready.staged.create "matchq_" "MatchText"
      (filter.with_snippet_within (filter.text_query_within ready)) (by decide) List.not_mem_nil
    exact wrap_sorted_compiled "MatchText" built staged (by decide) (by decide)
      (add_rank_column_within (star_within (created_defined _ _) [] nothing_within)
        (rank_expr_within _ rank) filter.sort)
      (nameable_defined (created_defined _ _))
  · exact plain_compiled ready (filter.text_query_within ready) (rank_expr_within _ rank) built

theorem register_snippet_compiled (compiled : Compiled state cte after) (filter : MatchText) :
    Compiled state cte (filter.registerSnippet after cte) := by
  unfold registerSnippet
  split
  · exact compiled
  · refine compiled.with_outputs rfl ⟨List.prefix_refl _, rfl, rfl, rfl⟩ rfl rfl
      ⟨compiled.ready.outputs.orders, fun extra member => ?_⟩
    rcases List.mem_append.mp member with earlier | isNew
    · exact compiled.ready.outputs.extras extra earlier
    · obtain ⟨label, _, rfl⟩ := List.mem_map.mp isNew
      exact compiled.ready.defined

theorem build_compiled (ready : Ready context state)
    (built : filter.build context state = .ok (cte, after)) : Compiled state cte after := by
  unfold build at built
  split at built
  rename_i own done ended
  cases built
  refine register_snippet_compiled ?_ filter
  split at ended
  · exact build_text_compiled ready ended
  · exact build_file_compiled ready ended

end MatchText

end Filters

end Panoptikon.Pql
