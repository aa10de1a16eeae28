import Panoptikon.Pql.FilterNames

/-!
# The names of the vector filters

The same for the three filters that compare embeddings, and for every filter.
-/

namespace Panoptikon.Pql

open Foundation Foundation.Sql

section Scoring

variable {defined : List String}

theorem all_of_within {conditions : List Expr} (within : ∀ condition ∈ conditions, ExprWithin defined condition) :
    ExprWithin defined (allOf conditions) := by
  cases conditions with
  | nil => trivial
  | cons first rest =>
    exact fold_within (fun _ _ => And.intro) (within first List.mem_cons_self)
      fun expr member => within expr (List.mem_cons_of_mem _ member)

theorem product_within {left right : Expr} (leftWithin : ExprWithin defined left)
    (rightWithin : ExprWithin defined right) : ExprWithin defined (product left right) :=
  ⟨leftWithin, rightWithin, trivial⟩

theorem coalesce_one_within {operand : Expr} (within : ExprWithin defined operand) :
    ExprWithin defined (coalesceOne operand) := ⟨within, trivial, trivial⟩

theorem pow_within {base : Expr} (within : ExprWithin defined base) (exponent : ℚ) :
    ExprWithin defined (powExpr base exponent) := ⟨within, trivial, trivial⟩

theorem aggregation_within {distance : Expr} (within : ExprWithin defined distance)
    (aggregation : DistanceAggregation) : ExprWithin defined (aggregation.apply distance) := by
  cases aggregation <;> exact within

theorem weighted_average_within {distance weight : Expr} (within : ExprWithin defined distance)
    (weightWithin : ExprWithin defined weight) : ExprWithin defined (weightedAverage distance weight) :=
  ⟨product_within within weightWithin, weightWithin, trivial⟩

theorem confidence_weight_within (src : SourceArgs) :
    ∀ weight ∈ confidenceWeightExpr src, ExprWithin defined weight := by
  have conf : ExprWithin defined (powExpr (coalesceOne (.column "extracted_text" "confidence"))
      src.confidenceWeight) := pow_within (coalesce_one_within (column_fixed (by decide))) _
  have lang : ExprWithin defined (powExpr
      (coalesceOne (.column "extracted_text" "language_confidence"))
      src.languageConfidenceWeight) := pow_within (coalesce_one_within (column_fixed (by decide))) _
  intro weight member
  unfold confidenceWeightExpr at member
  dsimp only at member
  split at member
  · split at member
    · cases member
      exact product_within conf lang
    · cases member
      exact conf
  · split at member
    · cases member
      exact lang
    · cases member

theorem source_weight_within (src : Option SourceArgs) :
    ∀ weight ∈ src.bind confidenceWeightExpr, ExprWithin defined weight := by
  intro weight member
  obtain ⟨src, _, found⟩ := Option.bind_eq_some_iff.mp member
  exact confidence_weight_within src weight found

theorem int8_within {payload : Expr} (within : ExprWithin defined payload) :
    ExprWithin defined (int8 payload) := ⟨within, trivial⟩

end Scoring

section Filters

variable {defined : List String} {context cte : CteRef} {state middle after : QueryState}

/-- What is wrapped after the distances have a CTE of their own reads only that. -/
theorem aggregate_within (member : cte.name ∈ defined) (weight : Option Expr)
    (aggregation : DistanceAggregation) (sort : SortableOptions) :
    CoreWithin defined (addRankColumnExpr
      { selectStdFromCte cte state with groupBy := getStdGroupBy cte state } sort
      (rankAggregate (cte.column "d") (weight.map fun _ => cte.column "w") aggregation)) := by
  have named := nameable_defined member
  have std : CoreWithin defined { selectStdFromCte cte state with
      groupBy := getStdGroupBy cte state } :=
    std_within member (nofun) nothing_within
      (std_group_by_within named) nothing_within
  refine add_rank_column_within std ?_ sort
  have distance : ExprWithin defined (cte.column "d") := named
  have scale : ExprWithin defined (cte.column "w") := named
  cases weight with
  | none => exact aggregation_within distance aggregation
  | some weight => exact weighted_average_within distance scale

theorem exact_scored_compiled (ready : Ready context state) (kind : String) {skeleton : SelectCore}
    {distance : Expr} {weight : Option Expr} {aggregation : DistanceAggregation}
    {sort : SortableOptions} {joinedTables : JoinedTables}
    (wrapped :
      let assembled := assembleExactFixb state (state.cteName kind) skeleton distance weight
        aggregation sort
      wrapSorted assembled.2 assembled.1.1 assembled.1.2 (state.cteName kind) sort joinedTables =
        (cte, after))
    (within : CoreWithin (namesOf state.ctes) skeleton)
    (distanceWithin : ExprWithin (namesOf state.ctes) distance)
    (weightWithin : ∀ expr ∈ weight, ExprWithin (namesOf state.ctes) expr) :
    Compiled state cte after := by
  have scored : CoreWithin (namesOf state.ctes) { skeleton with
      items := skeleton.items ++ [.expr distance "d"] ++
        weight.toList.map fun weight => .expr weight "w" } := by
    refine with_items_within (with_items_within within ?_) ?_
    · exact List.forall_mem_singleton.mpr distanceWithin
    · exact List.forall_mem_map.mpr fun expr member => weightWithin expr (Option.mem_toList.mp member)
  have staged := ready.staged.add "dist_" kind scored true (by decide) List.not_mem_nil rfl
  have defined : "dist_" ++ state.cteName kind ∈ namesOf (state.ctes ++
      [⟨"dist_" ++ state.cteName kind, { core := { skeleton with
        items := skeleton.items ++ [.expr distance "d"] ++
          weight.toList.map fun weight => .expr weight "w" } }, true⟩]) := by simp
  exact wrap_sorted_compiled kind wrapped staged (by decide) (by decide)
    (aggregate_within defined weight aggregation sort) (nameable_defined defined)

theorem vector_join_within {vecData : String} (fixed : vecData ∈ baseTables ++ localNames)
    (payload : VectorJoin) : (payload.join vecData).Within (Readable defined) (Nameable defined) := by
  have vector : Nameable defined vecData := nameable_fixed fixed
  cases payload <;>
    simp (disch := decide) [VectorJoin.join, Join.Within, innerJoin, Expr.Within, equals,
      nameable_fixed, readable_base, vector]

namespace SemanticTextSearch

theorem criteria_within (filter : SemanticTextSearch) :
    ∀ condition ∈ filter.criteria, ExprWithin defined condition := by
  unfold criteria
  split
  · exact nothing_within
  · simp only [List.forall_mem_append]
    exact ⟨⟨⟨⟨⟨positive_int_within (column_fixed (by decide)) _ _,
      positive_int_within (column_fixed (by decide)) _ _⟩,
      in_texts_unless_empty_within (column_fixed (by decide)) _⟩,
      in_texts_unless_empty_within (column_fixed (by decide)) _⟩,
      positive_real_within (column_fixed (by decide)) _ _⟩,
      positive_real_within (column_fixed (by decide)) _ _⟩

theorem skeleton_within (member : context.name ∈ defined) (filter : SemanticTextSearch)
    (payload : VectorJoin) : CoreWithin defined (filter.skeleton context state payload) := by
  have named := nameable_defined member
  have vector : (payload.join "vec_data").Within (Readable defined) (Nameable defined) :=
    vector_join_within (by decide) payload
  unfold skeleton
  split
  · refine std_within member ?_ filter.criteria_within nothing_within nothing_within
    simpa (disch := decide) [Join.Within, innerJoin, innerJoinAs, vecSettersJoin, Expr.Within,
      equals, CteRef.column, nameable_fixed, readable_base, named] using vector
  · refine std_within member ?_ filter.criteria_within nothing_within nothing_within
    simp only [List.forall_mem_append]
    refine ⟨?_, ?_⟩
    · simpa (disch := decide) [Join.Within, innerJoinAs, vecSettersJoin, Expr.Within,
        equals, CteRef.column, nameable_fixed, readable_base, named] using vector
    · split <;> simp (disch := decide) [Join.Within, innerJoin, innerJoinAs, nameable_fixed,
        readable_base]

theorem exact_distance_within (embedding : List UInt8) : ExprWithin defined (exactDistanceExpr embedding) :=
  ⟨column_fixed (by decide), trivial, trivial⟩

theorem quant_distance_within (queryQuant : List UInt8) : ExprWithin defined (quantDistanceExpr queryQuant) :=
  ⟨int8_within (column_fixed (by decide)), int8_within trivial, trivial⟩

theorem build_compiled {filter : SemanticTextSearch} (ready : Ready context state)
    (built : filter.build context state = .ok (cte, after)) : Compiled state cte after := by
  have skeletonWithin : ∀ payload, CoreWithin (namesOf state.ctes)
      (filter.skeleton context state payload) := filter.skeleton_within ready.defined
  unfold build at built
  dsimp only at built
  split at built
  · split at built
    · refine restriction_compiled ready "SemanticTextSearch" ?_ (Except.ok.inj built)
      exact grouped_within (skeletonWithin _) ready.named
    · split at built
      · split at built
        · exact exact_scored_compiled ready "SemanticTextSearch" (Except.ok.inj built)
            (skeletonWithin _) (quant_distance_within _) (source_weight_within _)
        · cases built
      · exact exact_scored_compiled ready "SemanticTextSearch" (Except.ok.inj built)
          (skeletonWithin _) (exact_distance_within _) (source_weight_within _)
  · cases built

end SemanticTextSearch

theorem src_text_conditions_within (src : SourceArgs) :
    ∀ condition ∈ srcTextConditions src, ExprWithin defined condition := by
  unfold srcTextConditions
  simp only [List.forall_mem_append]
  exact ⟨⟨⟨⟨⟨in_texts_unless_empty_within (column_fixed (by decide)) _,
    in_texts_unless_empty_within (column_fixed (by decide)) _⟩,
    positive_real_within (column_fixed (by decide)) _ _⟩,
    positive_real_within (column_fixed (by decide)) _ _⟩,
    positive_int_within (column_fixed (by decide)) _ _⟩,
    positive_int_within (column_fixed (by decide)) _ _⟩

theorem item_data_joins_within (model : String) (clipXmodal : Bool) :
    ∀ join ∈ itemDataJoins model clipXmodal, join.Within (Readable defined) (Nameable defined) := by
  have modelWithin : ExprWithin defined (modelCond model clipXmodal) := by
    have own : ExprWithin defined (.column "setters" "name") := column_fixed (by decide)
    unfold modelCond
    split
    · exact ⟨⟨own, trivial⟩, own, trivial⟩
    · exact ⟨own, trivial⟩
  simpa (disch := decide) [itemDataJoins, Join.Within, innerJoin, Expr.Within, equals,
    nameable_fixed, readable_base] using modelWithin

theorem items_within : Readable defined "items" ∧ Nameable defined "items" :=
  ⟨readable_base (by decide), nameable_fixed (by decide)⟩

theorem context_join_within (member : context.name ∈ defined) :
    (contextJoin context).Within (Readable defined) (Nameable defined) :=
  ⟨readable_defined member, nameable_defined member, nameable_defined member,
    nameable_fixed (by decide)⟩

namespace SemanticImageSearch

variable (filter : SemanticImageSearch)

theorem src_text_joins_within :
    ∀ join ∈ filter.srcTextJoins, join.Within (Readable defined) (Nameable defined) := by
  unfold srcTextJoins
  split
  · exact nofun
  · simp only [List.forall_mem_append]
    refine ⟨⟨?_, ?_⟩, ?_⟩
    · simp (disch := decide) [Join.Within, leftJoinAs, nameable_fixed, readable_base]
    · split <;> simp (disch := decide) [Join.Within, leftJoinAs, nameable_fixed, readable_base]
    · split <;> simp (disch := decide) [Join.Within, leftJoin, nameable_fixed, readable_base]

theorem src_text_cond_within :
    ∀ condition ∈ filter.srcTextCond, ExprWithin defined condition := by
  unfold srcTextCond
  split
  · exact nothing_within
  · exact List.forall_mem_singleton.mpr ⟨nameable_fixed (by decide),
      all_of_within (src_text_conditions_within _)⟩

theorem candidate_skeleton_within (member : context.name ∈ defined) (filter : SemanticImageSearch)
    (payload : VectorJoin) : CoreWithin defined (filter.candidateSkeleton context state payload) where
  source := items_within.1
  sourceName := items_within.2
  items := std_items_within (nameable_defined member)
  joins := by
    simp only [candidateSkeleton, List.forall_mem_append, List.forall_mem_singleton]
    exact ⟨⟨⟨item_data_joins_within _ _, vector_join_within (by decide) _⟩,
      filter.src_text_joins_within⟩, context_join_within member⟩
  conditions := by
    simp only [candidateSkeleton, List.forall_mem_append, List.forall_mem_singleton]
    exact ⟨filter.src_text_cond_within, nameable_defined member⟩
  groupBy := nothing_within
  having := nothing_within
  orderBy _ absent := absurd absent List.not_mem_nil

theorem exact_distance_within (embedding : List UInt8) : ExprWithin defined (filter.exactDistanceExpr embedding) :=
  ⟨column_fixed (by decide), trivial, trivial⟩

theorem quant_distance_within (queryQuant : List UInt8) :
    ExprWithin defined (filter.quantDistanceExpr queryQuant) :=
  ⟨int8_within (column_fixed (by decide)), int8_within trivial, trivial⟩

theorem build_compiled {filter : SemanticImageSearch} (ready : Ready context state)
    (built : filter.build context state = .ok (cte, after)) : Compiled state cte after := by
  have skeletonWithin : ∀ payload, CoreWithin (namesOf state.ctes)
      (filter.candidateSkeleton context state payload) :=
    filter.candidate_skeleton_within ready.defined
  unfold build at built
  dsimp only at built
  split at built
  · split at built
    · refine restriction_compiled ready "SemanticImageSearch" ?_ (Except.ok.inj built)
      exact grouped_within (skeletonWithin _) ready.named
    · split at built
      · split at built
        · exact exact_scored_compiled ready "SemanticImageSearch" (Except.ok.inj built)
            (skeletonWithin _) (filter.quant_distance_within _) (source_weight_within _)
        · cases built
      · exact exact_scored_compiled ready "SemanticImageSearch" (Except.ok.inj built)
          (skeletonWithin _) (filter.exact_distance_within _) (source_weight_within _)
  · cases built

end SemanticImageSearch

namespace SimilarTo

variable (filter : SimilarTo)

theorem src_text_joins_within :
    ∀ join ∈ filter.srcTextJoins, join.Within (Readable defined) (Nameable defined) := by
  unfold srcTextJoins
  dsimp only
  split
  · exact nofun
  · simp only [List.forall_mem_append]
    refine ⟨?_, ?_⟩
    · simp (disch := decide) [Join.Within, nameable_fixed, readable_base]
    · split <;> simp (disch := decide) [Join.Within, nameable_fixed, readable_base]

theorem src_text_cond_within :
    ∀ condition ∈ filter.srcTextCond, ExprWithin defined condition := by
  have all (src : SourceArgs) : ExprWithin defined (allOf (srcTextConditions src)) :=
    all_of_within (src_text_conditions_within src)
  unfold srcTextCond
  split
  · exact nothing_within
  · split
    · exact List.forall_mem_singleton.mpr ⟨nameable_fixed (by decide), all _⟩
    · split
      · exact nothing_within
      · exact List.forall_mem_singleton.mpr (all _)

theorem collection_within (member : context.name ∈ defined) (filter : SimilarTo)
    (payload : VectorJoin) {items : List Item} {conditions groupBy : List Expr}
    (itemsWithin : ∀ item ∈ items, item.Within (Readable defined) (Nameable defined))
    (conditionsWithin : ∀ condition ∈ conditions, ExprWithin defined condition)
    (groupByWithin : ∀ expr ∈ groupBy, ExprWithin defined expr) :
    CoreWithin defined { filter.baseSkeleton context with
      items
      joins := (filter.baseSkeleton context).joins ++ [payload.join "item_data"]
      conditions := (filter.baseSkeleton context).conditions ++ conditions
      groupBy } where
  source := items_within.1
  sourceName := items_within.2
  items := itemsWithin
  joins := by
    simp only [baseSkeleton, List.forall_mem_append, List.forall_mem_singleton]
    exact ⟨⟨⟨item_data_joins_within _ _, filter.src_text_joins_within⟩,
      context_join_within member⟩, vector_join_within (by decide) payload⟩
  conditions := List.forall_mem_append.mpr ⟨filter.src_text_cond_within, conditionsWithin⟩
  groupBy := groupByWithin
  having := nothing_within
  orderBy _ absent := absurd absent List.not_mem_nil

theorem vector_collection_within (member : context.name ∈ defined) (filter : SimilarTo)
    (payload : VectorJoin) : CoreWithin defined (filter.vectorCollection context state payload) := by
  refine filter.collection_within member payload ?_ ?_ nothing_within
  · simp only [List.forall_mem_append]
    refine ⟨⟨⟨?_, std_items_within (nameable_defined member)⟩, ?_⟩, ?_⟩
    · refine List.forall_mem_singleton.mpr ?_
      cases payload <;> exact nameable_fixed (by decide)
    · simp (disch := decide) [Item.Within, nameable_fixed]
    · split
      · exact List.forall_mem_nil _
      · refine List.forall_mem_append.mpr ⟨?_, ?_⟩ <;> split <;>
          simp (disch := decide) [Item.Within, nameable_fixed]
  · exact List.forall_mem_singleton.mpr ⟨nameable_defined member, column_fixed (by decide), trivial⟩

theorem count_query_within (member : context.name ∈ defined) (filter : SimilarTo) :
    CoreWithin defined (filter.countQuery context state) := by
  refine filter.collection_within member .embeddings (std_items_within (nameable_defined member)) ?_
    (std_group_by_within (nameable_defined member))
  have named := nameable_defined member
  simp (disch := decide) [Expr.Within, nameable_fixed, named]

theorem modality_within (dataType : String) : ExprWithin defined (modalityCond dataType) :=
  ⟨⟨column_fixed (by decide), trivial⟩, column_fixed (by decide), trivial⟩

theorem embeddings_nameable :
    Nameable defined "other_embeddings" ∧ Nameable defined "main_embeddings" :=
  ⟨nameable_fixed (by decide), nameable_fixed (by decide)⟩

theorem distance_select_within {collection : CteRef} (member : collection.name ∈ defined)
    (filter : SimilarTo) : CoreWithin defined (filter.distanceSelect state collection).1 where
  source := readable_defined member
  sourceName := embeddings_nameable.1
  items := std_items_within embeddings_nameable.1
  joins := List.forall_mem_singleton.mpr
    ⟨readable_defined member, embeddings_nameable.2, embeddings_nameable.2, trivial⟩
  conditions := by
    simp only [distanceSelect, List.forall_mem_append]
    refine ⟨⟨List.forall_mem_singleton.mpr ⟨column_fixed (by decide), trivial⟩, ?_⟩, ?_⟩
    · split
      · exact List.forall_mem_singleton.mpr (modality_within _)
      · exact nothing_within
    · split
      · exact List.forall_mem_singleton.mpr (modality_within _)
      · exact nothing_within
  groupBy := std_group_by_within embeddings_nameable.1
  having := nothing_within
  orderBy _ absent := absurd absent List.not_mem_nil

theorem rank_column_within (quant : Bool) : ExprWithin defined (filter.rankColumn quant) := by
  have vector {source : String} (fixed : source ∈ baseTables ++ localNames) : ExprWithin defined
      (if quant then int8 (.column source "embedding") else .column source "embedding") := by
    split
    · exact int8_within (column_fixed fixed)
    · exact column_fixed fixed
  have distance : ExprWithin defined (.call filter.similarTo.distanceFunction.name
      [if quant then int8 (.column "main_embeddings" "embedding")
        else .column "main_embeddings" "embedding",
       if quant then int8 (.column "other_embeddings" "embedding")
        else .column "other_embeddings" "embedding"]) :=
    ⟨vector (by decide), vector (by decide), trivial⟩
  have weight {first second : String} (firstFixed : first ∈ baseTables ++ localNames)
      (secondFixed : second ∈ baseTables ++ localNames) (column : String) (exponent : ℚ) :
      ExprWithin defined (powExpr (product (coalesceOne (.column first column))
        (coalesceOne (.column second column))) exponent) :=
    pow_within (product_within (coalesce_one_within (column_fixed firstFixed))
      (coalesce_one_within (column_fixed secondFixed))) exponent
  unfold rankColumn
  dsimp only
  split
  · exact aggregation_within distance _
  · split
    · split
      · exact weighted_average_within distance
          (product_within (weight (by decide) (by decide) _ _) (weight (by decide) (by decide) _ _))
      · exact weighted_average_within distance (weight (by decide) (by decide) _ _)
    · split
      · exact weighted_average_within distance (weight (by decide) (by decide) _ _)
      · exact aggregation_within distance _

theorem build_compiled {filter : SimilarTo} (ready : Ready context state)
    (built : filter.build context state = .ok (cte, after)) : Compiled state cte after := by
  unfold build at built
  dsimp only at built
  split at built
  · exact restriction_compiled ready "SimilarTo" (filter.count_query_within ready.defined)
      (Except.ok.inj built)
  · exact wrap_sorted_compiled "SimilarTo" (Except.ok.inj built)
      (ready.staged.create "unqemb_" "SimilarTo" (filter.vector_collection_within ready.defined _)
        (by decide) List.not_mem_nil) (by decide) (by decide)
      (add_rank_column_within (filter.distance_select_within (created_defined _ _))
        (filter.rank_column_within _) filter.sort) embeddings_nameable.1

end SimilarTo

theorem Filter.build_compiled {floats : FloatText} {filter : Filter} (ready : Ready context state)
    (built : filter.build floats context state = .ok (cte, after)) : Compiled state cte after := by
  cases filter with
  | match_ filter => exact Match.build_compiled ready built
  | matchPath filter => exact MatchPath.build_compiled ready built
  | matchText filter => exact MatchText.build_compiled ready built
  | semanticTextSearch filter => exact SemanticTextSearch.build_compiled ready built
  | semanticImageSearch filter => exact SemanticImageSearch.build_compiled ready built
  | similarTo filter => exact SimilarTo.build_compiled ready built
  | matchTags filter => exact MatchTags.build_compiled ready built
  | inBookmarks filter => exact InBookmarks.build_compiled ready built
  | processedBy filter => exact ProcessedBy.build_compiled ready built
  | failedFor filter => exact FailedFor.build_compiled ready built
  | hasUnprocessedData filter => exact HasUnprocessedData.build_compiled ready built
  | inPinboard filter => exact InPinboard.build_compiled ready built

end Filters

end Panoptikon.Pql
