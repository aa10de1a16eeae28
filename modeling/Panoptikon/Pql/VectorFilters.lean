import Panoptikon.Pql.Filters

/-!
# The vector filters

`text_embeddings.rs`, `image_embeddings.rs`, `item_similarity.rs` and the
scorer they share, `exact.rs`. Distances are functions of the engine.
-/

namespace Panoptikon.Pql

open Foundation Foundation.Sql

inductive DistanceAggregation where
  | min
  | max
  | avg

inductive DistanceFunction where
  | l2
  | cosine

def DistanceFunction.name : DistanceFunction → String
  | .l2 => "vec_distance_L2"
  | .cosine => "vec_distance_cosine"

inductive IndexMode where
  | auto
  | exact
  | quant
  | ann
deriving DecidableEq

structure QuantResolved where
  profileId : Int
  queryQuant : Option (List UInt8)

structure SourceArgs where
  setters : List String := []
  languages : Option (List String) := none
  minConfidence : Option ℚ := none
  minLanguageConfidence : ℚ := 0
  minLength : Int := 0
  maxLength : Option Int := none
  confidenceWeight : ℚ := 0
  languageConfidenceWeight : ℚ := 0

def inLanguages (args : SourceArgs) : List Expr :=
  inTextsUnlessEmpty (.column "extracted_text" "language") (args.languages.getD [])

/-- Which vector payload a skeleton joins. -/
inductive VectorJoin where
  | embeddings
  | quants (profileId : Int)

def VectorJoin.join (payload : VectorJoin) (vecData : String) : Join :=
  match payload with
  | .embeddings =>
      innerJoin "embeddings" (equals (.column "embeddings" "id") (.column vecData "id"))
  | .quants profileId =>
      innerJoin "embedding_quants" (.and
        (equals (.column "embedding_quants" "id") (.column vecData "id"))
        (equals (.column "embedding_quants" "profile_id") (.val (.int profileId))))

/-- `Cond::all` of some conditions; of none, a condition that holds. -/
def allOf : List Expr → Expr
  | [] => .val (.int 1)
  | first :: rest => rest.foldl .and first

def product (left right : Expr) : Expr := .call "*" [left, right]

def coalesceOne (operand : Expr) : Expr := .call "coalesce" [operand, .val (.int 1)]

def powExpr (base : Expr) (exponent : ℚ) : Expr := .call "pow" [base, .val (.real exponent)]

def confidenceWeightExpr (srcText : SourceArgs) : Option Expr :=
  let conf := powExpr (coalesceOne (.column "extracted_text" "confidence")) srcText.confidenceWeight
  let lang := powExpr (coalesceOne (.column "extracted_text" "language_confidence"))
    srcText.languageConfidenceWeight
  if srcText.confidenceWeight ≠ 0 then
    if srcText.languageConfidenceWeight ≠ 0 then some (product conf lang) else some conf
  else if srcText.languageConfidenceWeight ≠ 0 then some lang
  else none

def DistanceAggregation.apply (aggregation : DistanceAggregation) (distance : Expr) : Expr :=
  match aggregation with
  | .max => .aggregate "max" distance
  | .avg => .aggregate "avg" distance
  | .min => .aggregate "min" distance

def weightedAverage (distance weight : Expr) : Expr :=
  .call "/" [.aggregate "sum" (product distance weight), .aggregate "sum" weight]

def rankAggregate (distance : Expr) (weight : Option Expr) (aggregation : DistanceAggregation) :
    Expr :=
  match weight with
  | some weight => weightedAverage distance weight
  | none => aggregation.apply distance

/-- Moves the distance into a materialized CTE of its own and aggregates over
that, so the returned select reads nothing else. -/
def assembleExactFixb (state : QueryState) (cteName : String) (skeleton : SelectCore)
    (distance : Expr) (weight : Option Expr) (aggregation : DistanceAggregation)
    (sort : SortableOptions) : (SelectCore × CteRef) × QueryState :=
  let skeleton := { skeleton with
    items := skeleton.items ++ [.expr distance "d"] ++
      weight.toList.map fun weight => .expr weight "w" }
  let (cte, state) := createMaterializedCte state ("dist_" ++ cteName) { core := skeleton }
  let query := { selectStdFromCte cte state with groupBy := getStdGroupBy cte state }
  let aggregate := rankAggregate (cte.column "d") (weight.map fun _ => cte.column "w") aggregation
  ((addRankColumnExpr query sort aggregate, cte), state)

def int8 (payload : Expr) : Expr := .call "vec_int8" [payload]

structure SemanticTextArgs where
  query : String
  embedding : Option (List UInt8) := none
  model : String
  distanceAggregation : DistanceAggregation := .min
  /-- Whether the query still has to be embedded by the model. -/
  embed : Bool := true
  srcText : Option SourceArgs := none
  index : IndexMode := .auto
  variant : Option String := none
  k : Int := 10000
  quant : Option QuantResolved := none

structure SemanticTextSearch where
  sort : SortableOptions := { orderBy := true }
  textEmbeddings : SemanticTextArgs

namespace SemanticTextSearch

def criteria (filter : SemanticTextSearch) : List Expr :=
  match filter.textEmbeddings.srcText with
  | none => []
  | some src =>
      positiveInt (.column "extracted_text" "text_length") .gte (some src.minLength) ++
      positiveInt (.column "extracted_text" "text_length") .lte src.maxLength ++
      inTextsUnlessEmpty (.column "text_setters" "name") src.setters ++
      inLanguages src ++
      positiveReal (.column "extracted_text" "language_confidence") .gte
        (some src.minLanguageConfidence) ++
      positiveReal (.column "extracted_text" "confidence") .gte src.minConfidence

def weightsUsed (filter : SemanticTextSearch) : Bool :=
  match filter.textEmbeddings.srcText with
  | none => false
  | some src => src.confidenceWeight ≠ 0 || src.languageConfidenceWeight ≠ 0

def vecSettersJoin (filter : SemanticTextSearch) : Join :=
  innerJoinAs "setters" "vec_setters" (.and
    (equals (.column "vec_setters" "id") (.column "vec_data" "setter_id"))
    (equals (.column "vec_setters" "name") (.val (.text filter.textEmbeddings.model))))

def textEntitySkeleton (filter : SemanticTextSearch) (context : CteRef) (state : QueryState)
    (payload : VectorJoin) : SelectCore :=
  { selectStdFromCte context state with
    joins :=
      [innerJoinAs "item_data" "text_data"
        (equals (.column "text_data" "id") (context.column "data_id")),
       innerJoinAs "setters" "text_setters"
        (equals (.column "text_setters" "id") (.column "text_data" "setter_id")),
       innerJoin "extracted_text"
        (equals (.column "extracted_text" "id") (context.column "data_id")),
       innerJoinAs "item_data" "vec_data"
        (equals (.column "vec_data" "source_id") (.column "extracted_text" "id")),
       filter.vecSettersJoin, payload.join "vec_data"]
    conditions := filter.criteria }

def fileSkeleton (filter : SemanticTextSearch) (context : CteRef) (state : QueryState)
    (payload : VectorJoin) : SelectCore :=
  let textJoins :=
    [innerJoinAs "item_data" "text_data"
      (equals (.column "text_data" "id") (.column "vec_data" "source_id")),
     innerJoinAs "setters" "text_setters"
      (equals (.column "text_setters" "id") (.column "text_data" "setter_id")),
     innerJoin "extracted_text" (equals (.column "extracted_text" "id") (.column "text_data" "id"))]
  { selectStdFromCte context state with
    joins :=
      [innerJoinAs "item_data" "vec_data"
        (equals (.column "vec_data" "item_id") (context.column "item_id")),
       filter.vecSettersJoin, payload.join "vec_data"] ++
      if !filter.criteria.isEmpty || filter.weightsUsed then textJoins else []
    conditions := filter.criteria }

def skeleton (filter : SemanticTextSearch) (context : CteRef) (state : QueryState)
    (payload : VectorJoin) : SelectCore :=
  if state.itemDataQuery && state.entity = .text then
    filter.textEntitySkeleton context state payload
  else filter.fileSkeleton context state payload

def exactDistanceExpr (embedding : List UInt8) : Expr :=
  .call "vec_distance_L2" [.column "embeddings" "embedding", .val (.blob embedding)]

def quantDistanceExpr (queryQuant : List UInt8) : Expr :=
  .call "vec_distance_L2" [int8 (.column "embedding_quants" "quant"), int8 (.val (.blob queryQuant))]

def build (filter : SemanticTextSearch) (context : CteRef) (state : QueryState) : Build := do
  let args := filter.textEmbeddings
  let some embedding := args.embedding
    | .error (.invalid "text_embeddings missing embedding bytes")
  let cteName := state.cteName "SemanticTextSearch"
  if state.isCountQuery then
    let query := { filter.skeleton context state .embeddings with
      groupBy := getStdGroupBy context state }
    let joinedTables := if state.itemDataQuery && state.entity = .text then
      [BaseTable.extractedText] else []
    return wrapUnsorted state query context cteName joinedTables
  else
    let (skeleton, distance) ← match args.quant with
      | some quant => do
          let some queryQuant := quant.queryQuant
            | .error (.invalid "text_embeddings missing query quant")
          pure (filter.skeleton context state (.quants quant.profileId),
            quantDistanceExpr queryQuant)
      | none => pure (filter.skeleton context state .embeddings, exactDistanceExpr embedding)
    let ((query, distCte), state) := assembleExactFixb state cteName skeleton distance
      (args.srcText.bind confidenceWeightExpr) args.distanceAggregation filter.sort
    return wrapSorted state query distCte cteName filter.sort []

end SemanticTextSearch

/-- The name of the model, and of its text sibling in a cross-modal search. -/
def modelCond (model : String) (clipXmodal : Bool) : Expr :=
  let own := equals (.column "setters" "name") (.val (.text model))
  if clipXmodal then .or own (equals (.column "setters" "name") (.val (.text ("t" ++ model))))
  else own

def srcTextConditions (src : SourceArgs) : List Expr :=
  inTextsUnlessEmpty (.column "src_setters" "name") src.setters ++
  inLanguages src ++
  positiveReal (.column "extracted_text" "confidence") .gte src.minConfidence ++
  positiveReal (.column "extracted_text" "language_confidence") .gte
    (some src.minLanguageConfidence) ++
  positiveInt (.column "extracted_text" "text_length") .gte (some src.minLength) ++
  positiveInt (.column "extracted_text" "text_length") .lte src.maxLength

def itemDataJoins (model : String) (clipXmodal : Bool) : List Join :=
  [innerJoin "item_data" (equals (.column "item_data" "item_id") (.column "items" "id")),
   innerJoin "setters" (.and (equals (.column "setters" "id") (.column "item_data" "setter_id"))
    (modelCond model clipXmodal))]

def contextJoin (context : CteRef) : Join :=
  leftJoin context.name (equals (context.column "item_id") (.column "items" "id"))

def stdItems (context : CteRef) (state : QueryState) : List Item :=
  state.stdColumns.map fun column => .expr (context.column column) column

structure SemanticImageArgs where
  query : String
  embedding : Option (List UInt8) := none
  distanceFuncOverride : Option DistanceFunction := none
  model : String
  distanceAggregation : DistanceAggregation := .min
  embed : Bool := true
  clipXmodal : Bool := false
  srcText : Option SourceArgs := none
  index : IndexMode := .auto
  variant : Option String := none
  k : Int := 10000
  quant : Option QuantResolved := none

structure SemanticImageSearch where
  sort : SortableOptions := { orderBy := true }
  imageEmbeddings : SemanticImageArgs

namespace SemanticImageSearch

/-- A criterion or a weight on the source text needs `extracted_text`. -/
def joinText (filter : SemanticImageSearch) : Bool :=
  match filter.imageEmbeddings.srcText with
  | none => false
  | some src => !(srcTextConditions { src with setters := [] }).isEmpty ||
      src.confidenceWeight ≠ 0 || src.languageConfidenceWeight ≠ 0

def srcTextJoins (filter : SemanticImageSearch) : List Join :=
  match filter.imageEmbeddings.srcText with
  | none => []
  | some src =>
      [leftJoinAs "item_data" "src_item_data"
        (equals (.column "src_item_data" "id") (.column "item_data" "source_id"))] ++
      (if src.setters.isEmpty then []
        else [leftJoinAs "setters" "src_setters"
          (equals (.column "src_setters" "id") (.column "src_item_data" "setter_id"))]) ++
      if filter.joinText then
        [leftJoin "extracted_text"
          (equals (.column "extracted_text" "id") (.column "item_data" "source_id"))]
      else []

def srcTextCond (filter : SemanticImageSearch) : List Expr :=
  match filter.imageEmbeddings.srcText with
  | none => []
  | some src =>
      [.or (.isNull (.column "src_item_data" "id")) (allOf (srcTextConditions src))]

def candidateSkeleton (filter : SemanticImageSearch) (context : CteRef) (state : QueryState)
    (payload : VectorJoin) : SelectCore where
  items := stdItems context state
  source := "items"
  sourceName := "items"
  joins :=
    itemDataJoins filter.imageEmbeddings.model filter.imageEmbeddings.clipXmodal ++
    [payload.join "item_data"] ++ filter.srcTextJoins ++ [contextJoin context]
  conditions := filter.srcTextCond ++ [.isNotNull (context.column "item_id")]

def distanceFunc (filter : SemanticImageSearch) : String :=
  match filter.imageEmbeddings.distanceFuncOverride with
  | some .l2 => DistanceFunction.l2.name
  | _ => DistanceFunction.cosine.name

def exactDistanceExpr (filter : SemanticImageSearch) (embedding : List UInt8) : Expr :=
  .call filter.distanceFunc [.column "embeddings" "embedding", .val (.blob embedding)]

def quantDistanceExpr (filter : SemanticImageSearch) (queryQuant : List UInt8) : Expr :=
  .call filter.distanceFunc [int8 (.column "embedding_quants" "quant"),
    int8 (.val (.blob queryQuant))]

def build (filter : SemanticImageSearch) (context : CteRef) (state : QueryState) : Build := do
  let args := filter.imageEmbeddings
  let some embedding := args.embedding
    | .error (.invalid "image_embeddings missing embedding bytes")
  let cteName := state.cteName "SemanticImageSearch"
  if state.isCountQuery then
    let query := { filter.candidateSkeleton context state .embeddings with
      groupBy := getStdGroupBy context state }
    let joinedTables := [BaseTable.items, .itemData, .setters] ++
      if filter.joinText then [.extractedText] else []
    return wrapUnsorted state query context cteName joinedTables
  else
    let (skeleton, distance) ← match args.quant with
      | some quant => do
          let some queryQuant := quant.queryQuant
            | .error (.invalid "image_embeddings missing query quant")
          pure (filter.candidateSkeleton context state (.quants quant.profileId),
            filter.quantDistanceExpr queryQuant)
      | none =>
          pure (filter.candidateSkeleton context state .embeddings,
            filter.exactDistanceExpr embedding)
    let ((query, distCte), state) := assembleExactFixb state cteName skeleton distance
      (args.srcText.bind confidenceWeightExpr) args.distanceAggregation filter.sort
    return wrapSorted state query distCte cteName filter.sort []

end SemanticImageSearch

structure SimilarityArgs where
  target : String
  model : String
  distanceFunction : DistanceFunction := .l2
  forceDistanceFunction : Option Bool := none
  distanceAggregation : DistanceAggregation := .avg
  srcText : Option SourceArgs := none
  clipXmodal : Bool := false
  xmodalT2t : Bool := true
  xmodalI2i : Bool := true
  index : IndexMode := .auto
  variant : Option String := none
  k : Int := 10000
  quant : Option QuantResolved := none

structure SimilarTo where
  sort : SortableOptions := { orderBy := true }
  similarTo : SimilarityArgs

namespace SimilarTo

def srcTextJoins (filter : SimilarTo) : List Join :=
  let kind : JoinKind := if filter.similarTo.clipXmodal then .left else .inner
  match filter.similarTo.srcText with
  | none => []
  | some src =>
      [{ kind, table := "extracted_text", name := "extracted_text",
         on := equals (.column "extracted_text" "id") (.column "item_data" "source_id") },
       { kind, table := "item_data", name := "src_item_data",
         on := equals (.column "src_item_data" "id") (.column "extracted_text" "id") }] ++
      if src.setters.isEmpty then []
      else [{ kind, table := "setters", name := "src_setters",
              on := equals (.column "src_setters" "id") (.column "src_item_data" "setter_id") }]

def srcTextCond (filter : SimilarTo) : List Expr :=
  match filter.similarTo.srcText with
  | none => []
  | some src =>
      if filter.similarTo.clipXmodal then
        [.or (.isNull (.column "extracted_text" "id")) (allOf (srcTextConditions src))]
      else if (srcTextConditions src).isEmpty then []
      else [allOf (srcTextConditions src)]

def baseSkeleton (filter : SimilarTo) (context : CteRef) : SelectCore where
  items := []
  source := "items"
  sourceName := "items"
  joins :=
    itemDataJoins filter.similarTo.model filter.similarTo.clipXmodal ++ filter.srcTextJoins ++
      [contextJoin context]
  conditions := filter.srcTextCond

def vectorCollection (filter : SimilarTo) (context : CteRef) (state : QueryState)
    (payload : VectorJoin) : SelectCore :=
  let base := filter.baseSkeleton context
  let vector : Expr :=
    match payload with
    | .embeddings => .column "embeddings" "embedding"
    | .quants _ => .column "embedding_quants" "quant"
  let weights : List Item :=
    match filter.similarTo.srcText with
    | none => []
    | some src =>
        (if src.confidenceWeight ≠ 0 then
          [.expr (.column "extracted_text" "confidence") "confidence"] else []) ++
        if src.languageConfidenceWeight ≠ 0 then
          [.expr (.column "extracted_text" "language_confidence") "language_confidence"] else []
  { base with
    items := [.expr vector "embedding"] ++ stdItems context state ++
      [.expr (.column "items" "sha256") "sha256",
       .expr (.column "item_data" "data_type") "data_type"] ++ weights
    joins := base.joins ++ [payload.join "item_data"]
    conditions := base.conditions ++ [.or (.isNotNull (context.column "item_id"))
      (equals (.column "items" "sha256") (.val (.text filter.similarTo.target)))] }

def modalityCond (dataType : String) : Expr :=
  .or (.compare .ne (.column "main_embeddings" "data_type") (.val (.text dataType)))
    (.compare .ne (.column "other_embeddings" "data_type") (.val (.text dataType)))

/-- The self-join of a collection: every other vector beside the target's. -/
def distanceSelect (filter : SimilarTo) (state : QueryState) (collection : CteRef) :
    SelectCore × CteRef :=
  let args := filter.similarTo
  let otherCtx : CteRef := ⟨"other_embeddings"⟩
  let select : SelectCore :=
    { items := stdItems otherCtx state
      source := collection.name
      sourceName := "other_embeddings"
      joins := [innerJoinAs collection.name "main_embeddings"
        (equals (.column "main_embeddings" "sha256") (.val (.text args.target)))]
      conditions :=
        [.compare .ne (.column "other_embeddings" "sha256") (.val (.text args.target))] ++
        (if args.clipXmodal && !args.xmodalI2i then [modalityCond "clip"] else []) ++
        if args.clipXmodal && !args.xmodalT2t then [modalityCond "text-embedding"] else []
      groupBy := getStdGroupBy otherCtx state }
  (select, otherCtx)

def rankColumn (filter : SimilarTo) (quant : Bool) : Expr :=
  let args := filter.similarTo
  let payload (source : String) : Expr :=
    if quant then int8 (.column source "embedding") else .column source "embedding"
  let vecDistance : Expr :=
    .call args.distanceFunction.name [payload "main_embeddings", payload "other_embeddings"]
  match args.srcText with
  | none => args.distanceAggregation.apply vecDistance
  | some src =>
      let conf := powExpr (product (coalesceOne (.column "main_embeddings" "confidence"))
        (coalesceOne (.column "other_embeddings" "confidence"))) src.confidenceWeight
      let lang := powExpr (product (coalesceOne (.column "other_embeddings" "language_confidence"))
        (coalesceOne (.column "main_embeddings" "language_confidence")))
        src.languageConfidenceWeight
      if src.confidenceWeight ≠ 0 then
        if src.languageConfidenceWeight ≠ 0 then weightedAverage vecDistance (product conf lang)
        else weightedAverage vecDistance conf
      else if src.languageConfidenceWeight ≠ 0 then weightedAverage vecDistance lang
      else args.distanceAggregation.apply vecDistance

def countQuery (filter : SimilarTo) (context : CteRef) (state : QueryState) : SelectCore :=
  let base := filter.baseSkeleton context
  { base with
    items := stdItems context state
    joins := base.joins ++ [VectorJoin.embeddings.join "item_data"]
    conditions := base.conditions ++ [.isNotNull (context.column "item_id"),
      .compare .ne (.column "items" "sha256") (.val (.text filter.similarTo.target))]
    groupBy := getStdGroupBy context state }

def build (filter : SimilarTo) (context : CteRef) (state : QueryState) : Build :=
  let args := filter.similarTo
  let cteName := state.cteName "SimilarTo"
  if state.isCountQuery then
    let joinedTables := [BaseTable.items, .itemData, .setters] ++
      if args.srcText.isSome then [.extractedText] else []
    .ok (wrapUnsorted state (filter.countQuery context state) context cteName joinedTables)
  else
    let payload : VectorJoin :=
      match args.quant with
      | some quant => .quants quant.profileId
      | none => .embeddings
    let (unqembCte, state) := createCte state ("unqemb_" ++ cteName)
      { core := filter.vectorCollection context state payload }
    let (select, otherCtx) := filter.distanceSelect state unqembCte
    let select := addRankColumnExpr select filter.sort (filter.rankColumn args.quant.isSome)
    .ok (wrapSorted state select otherCtx cteName filter.sort [])

end SimilarTo

end Panoptikon.Pql
