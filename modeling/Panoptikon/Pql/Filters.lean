import Panoptikon.Pql.State

/-!
# The filters without vectors

`pql/builder/filters/*.rs`: each compiles, in a context CTE, to a CTE of its own.
-/

namespace Panoptikon.Pql

open Foundation Foundation.Sql

abbrev Build := Except Failure (CteRef × QueryState)

def inTexts (operand : Expr) (texts : List String) : Expr := .isIn operand (texts.map .text)

/-- A bound that only counts when it is positive. -/
def positiveInt (column : Expr) (comparison : Comparison) (bound : Option Int) : List Expr :=
  match bound with
  | some bound => if bound > 0 then [.compare comparison column (.val (.int bound))] else []
  | none => []

def positiveReal (column : Expr) (comparison : Comparison) (bound : Option ℚ) : List Expr :=
  match bound with
  | some bound => if bound > 0 then [.compare comparison column (.val (.real bound))] else []
  | none => []

def inTextsUnlessEmpty (operand : Expr) (texts : List String) : List Expr :=
  if texts.isEmpty then [] else [inTexts operand texts]

def Match.build (floats : FloatText) (filter : Match) (context : CteRef) (state : QueryState) :
    Build := do
  let expression ← buildMatchesExpression floats filter.match_ state.itemDataQuery
  let query := selectStdFromCte context state
  let fileJoins :=
    [innerJoin "items" (equals (.column "items" "id") (context.column "item_id")),
     innerJoin "files" (equals (.column "files" "id") (context.column "file_id"))]
  let dataJoins :=
    [innerJoin "extracted_text" (equals (.column "extracted_text" "id") (context.column "data_id")),
     innerJoin "item_data" (equals (.column "item_data" "id") (context.column "data_id")),
     innerJoin "setters" (equals (.column "setters" "id") (.column "item_data" "setter_id"))]
  let query := { query with
    joins := fileJoins ++ if state.itemDataQuery then dataJoins else []
    conditions := [expression] }
  let joinedTables := [BaseTable.items, .files] ++
    if state.itemDataQuery then [.itemData, .setters, .extractedText] else []
  return wrapUnsorted state query context (state.cteName "Match") joinedTables

structure MatchPathArgs where
  match_ : String
  filenameOnly : Bool := false
  rawFts5Match : Bool := true

structure MatchPath where
  sort : SortableOptions := {}
  matchPath : MatchPathArgs

def MatchPath.build (filter : MatchPath) (context : CteRef) (state : QueryState) : Build :=
  let matchColumn := if filter.matchPath.filenameOnly then "filename" else "path"
  let query := { selectStdFromCte context state with
    joins := [innerJoin "files_path_fts"
      (equals (.column "files_path_fts" "rowid") (context.column "file_id"))]
    conditions := [.fullText "files_path_fts" matchColumn (.text filter.matchPath.match_)] }
  let query := if state.isCountQuery then query else addSortableRankColumn query filter.sort
  .ok (wrapSorted state query context (state.cteName "MatchPath") filter.sort [])

structure MatchTextArgs where
  match_ : String
  filterOnly : Bool := false
  setters : List String := []
  languages : List String := []
  minLanguageConfidence : Option ℚ := none
  minConfidence : Option ℚ := none
  rawFts5Match : Bool := true
  minLength : Option Int := none
  maxLength : Option Int := none
  selectSnippetAs : Option String := none
  sMaxLen : Int := 30
  sEllipsis : String := "..."
  sStartTag : String := "<b>"
  sEndTag : String := "</b>"

structure MatchText where
  sort : SortableOptions := {}
  matchText : MatchTextArgs

namespace MatchText

/-- An empty alias asks for no snippet. -/
def snippetAlias (filter : MatchText) : Option String :=
  filter.matchText.selectSnippetAs.filter fun label => !label.isEmpty

def wantSnippet (filter : MatchText) (state : QueryState) : Bool :=
  filter.snippetAlias.isSome && !state.isCountQuery

def criteria (filter : MatchText) : List Expr :=
  let args := filter.matchText
  (if args.filterOnly then [] else [.fullText "extracted_text_fts" "text" (.text args.match_)]) ++
  positiveInt (.column "extracted_text" "text_length") .gte args.minLength ++
  positiveInt (.column "extracted_text" "text_length") .lte args.maxLength ++
  inTextsUnlessEmpty (.column "setters" "name") args.setters ++
  inTextsUnlessEmpty (.column "extracted_text" "language") args.languages ++
  positiveReal (.column "extracted_text" "language_confidence") .gte args.minLanguageConfidence ++
  positiveReal (.column "extracted_text" "confidence") .gte args.minConfidence

def snippetExpr (filter : MatchText) : Expr :=
  let args := filter.matchText
  .call "snippet" [.column "extracted_text_fts" "extracted_text_fts", .val (.int (-1)),
    .val (.text args.sStartTag), .val (.text args.sEndTag), .val (.text args.sEllipsis),
    .val (.int args.sMaxLen)]

def registerSnippet (filter : MatchText) (state : QueryState) (cte : CteRef) : QueryState :=
  if state.isCountQuery then state
  else { state with extraColumns := state.extraColumns ++
          filter.snippetAlias.toList.map fun label => ⟨"snip", cte, label⟩ }

/-- The query of a file or item search: any text of the item may match. -/
def fileQuery (filter : MatchText) (context : CteRef) (state : QueryState) : SelectCore :=
  { selectStdFromCte context state with
    joins :=
      [innerJoin "item_data" (equals (.column "item_data" "item_id") (context.column "item_id")),
       innerJoin "setters" (equals (.column "setters" "id") (.column "item_data" "setter_id")),
       innerJoin "extracted_text" (equals (.column "extracted_text" "id") (.column "item_data" "id")),
       innerJoin "extracted_text_fts"
        (equals (.column "extracted_text_fts" "rowid") (.column "extracted_text" "id"))]
    conditions := filter.criteria }

/-- The query of a text search: the row's own text must match. -/
def textQuery (filter : MatchText) (context : CteRef) (state : QueryState) : SelectCore :=
  { selectStdFromCte context state with
    joins :=
      [innerJoin "extracted_text"
        (equals (.column "extracted_text" "id") (context.column "data_id")),
       innerJoin "item_data" (equals (.column "item_data" "id") (context.column "data_id")),
       innerJoin "setters" (equals (.column "setters" "id") (.column "item_data" "setter_id")),
       innerJoin "extracted_text_fts"
        (equals (.column "extracted_text_fts" "rowid") (.column "extracted_text" "id"))]
    conditions := filter.criteria }

def withSnippet (filter : MatchText) (query : SelectCore) : SelectCore :=
  { query with items := query.items ++ [.expr filter.snippetExpr "snip", .expr (.bare "rank") "rank"] }

def joined : JoinedTables := [.itemData, .setters, .extractedText]

def buildFile (filter : MatchText) (context : CteRef) (state : QueryState) :
    CteRef × QueryState :=
  let cteName := state.cteName "MatchText"
  let query := filter.fileQuery context state
  if filter.wantSnippet state then
    let (matchCte, state) :=
      createCte state ("matchq_" ++ cteName) { core := filter.withSnippet query }
    let rownumQuery : SelectCore :=
      { items := [.star matchCte.name,
          .rowNumber [matchCte.column "file_id"] [{ expr := matchCte.column "rank" }] "rn"],
        source := matchCte.name, sourceName := matchCte.name }
    let (rownumCte, state) := createCte state ("rownum_" ++ cteName) { core := rownumQuery }
    let finalQuery : SelectCore :=
      { items := [.star rownumCte.name], source := rownumCte.name, sourceName := rownumCte.name,
        conditions := [equals (rownumCte.column "rn") (.val (.int 1))] }
    wrapSorted state (addRankColumnExpr finalQuery filter.sort (.bare "rank")) rownumCte cteName
      filter.sort []
  else
    let query := { query with groupBy := getStdGroupBy context state }
    let rankExpr : Expr :=
      if filter.matchText.filterOnly then .val (.int 1) else .aggregate "min" (.bare "rank")
    let query :=
      if state.isCountQuery then query else addRankColumnExpr query filter.sort rankExpr
    wrapSorted state query context cteName filter.sort joined

def buildText (filter : MatchText) (context : CteRef) (state : QueryState) :
    CteRef × QueryState :=
  let cteName := state.cteName "MatchText"
  let query := filter.textQuery context state
  let rankExpr : Expr := if filter.matchText.filterOnly then .val (.int 1) else .bare "rank"
  if filter.wantSnippet state then
    let (matchCte, state) :=
      createCte state ("matchq_" ++ cteName) { core := filter.withSnippet query }
    let finalQuery : SelectCore :=
      { items := [.star matchCte.name], source := matchCte.name, sourceName := matchCte.name }
    wrapSorted state (addRankColumnExpr finalQuery filter.sort rankExpr) matchCte cteName
      filter.sort []
  else
    let query :=
      if state.isCountQuery then query else addRankColumnExpr query filter.sort rankExpr
    wrapSorted state query context cteName filter.sort joined

def build (filter : MatchText) (context : CteRef) (state : QueryState) : Build :=
  let (cte, state) :=
    if state.itemDataQuery && state.entity = .text then filter.buildText context state
    else filter.buildFile context state
  .ok (cte, filter.registerSnippet state cte)

end MatchText

structure TagsArgs where
  tags : List String := []
  matchAny : Bool := false
  minConfidence : ℚ := 0
  setters : List String := []
  namespaces : List String := []
  allSettersRequired : Bool := false

structure MatchTags where
  sort : SortableOptions := {}
  matchTags : TagsArgs

namespace MatchTags

def conditions (filter : MatchTags) : List Expr :=
  let args := filter.matchTags
  let namespaceExpr (name : String) : Expr := .like (.column "tags" "namespace") (name ++ "%")
  [inTexts (.column "tags" "name") args.tags] ++
  positiveReal (.column "tags_items" "confidence") .gte (some args.minConfidence) ++
  inTextsUnlessEmpty (.column "setters" "name") args.setters ++
  match args.namespaces with
  | [] => []
  | first :: rest => [(rest.map namespaceExpr).foldl .or (namespaceExpr first)]

def having (filter : MatchTags) : List Expr :=
  let args := filter.matchTags
  let clause :=
    if args.allSettersRequired then
      equals (.countDistinct (.concat (.concat (.column "item_data" "setter_id") (.val (.text "-")))
        (.column "tags" "name"))) (.val (.int (args.tags.length * args.setters.length)))
    else equals (.countDistinct (.column "tags" "name")) (.val (.int args.tags.length))
  if args.matchAny && args.tags.length > 1 then [] else [clause]

/-- The context's rows whose item carries the tags. -/
def matchingItems (filter : MatchTags) (context : CteRef) (state : QueryState) : SelectCore :=
  let query := { selectStdFromCte context state with
    joins :=
      [innerJoin "item_data" (.and
        (equals (.column "item_data" "item_id") (context.column "item_id"))
        (equals (.column "item_data" "data_type") (.val (.text "tags")))),
       innerJoin "setters" (equals (.column "setters" "id") (.column "item_data" "setter_id")),
       innerJoin "tags_items" (equals (.column "tags_items" "item_data_id") (.column "item_data" "id")),
       innerJoin "tags" (equals (.column "tags" "id") (.column "tags_items" "tag_id"))]
    conditions := filter.conditions
    groupBy := getStdGroupBy context state
    having := filter.having }
  if state.isCountQuery then query
  else addRankColumnExpr query filter.sort (.aggregate "avg" (.column "tags_items" "confidence"))

/-- The context joined to the matching rows: by data row in a text query, by
file otherwise. -/
def query (context matching : CteRef) (state : QueryState) : SelectCore :=
  let std := selectStdFromCte context state
  { std with
    items := std.items ++
      if state.isCountQuery then [] else [.expr (matching.column "order_rank") "order_rank"]
    joins := [innerJoin matching.name
      (if state.itemDataQuery then equals (matching.column "data_id") (context.column "data_id")
        else equals (matching.column "file_id") (context.column "file_id"))] }

def build (filter : MatchTags) (context : CteRef) (state : QueryState) : Build :=
  let cteName := state.cteName "MatchTags"
  let (matching, state) :=
    createCte state ("match_" ++ cteName) { core := filter.matchingItems context state }
  .ok (wrapSorted state (query context matching state) context cteName filter.sort [])

end MatchTags

structure InBookmarksArgs where
  filter : Bool := true
  namespaces : List String := []
  subNs : Bool := false
  user : String := "user"
  includeWildcard : Bool := true

structure InBookmarks where
  sort : SortableOptions := {}
  inBookmarks : InBookmarksArgs

namespace InBookmarks

def criteria (filter : InBookmarks) : List Expr :=
  let args := filter.inBookmarks
  let inNamespaces := inTexts (.column "user_data.bookmarks" "namespace") args.namespaces
  let subNamespace (name : String) : Expr :=
    .like (.column "user_data.bookmarks" "namespace") (name ++ ".%")
  (if args.namespaces.isEmpty then []
    else if args.subNs then [(args.namespaces.map subNamespace).foldl .or inNamespaces]
    else [inNamespaces]) ++
  [inTexts (.column "user_data.bookmarks" "user")
    (args.user :: if args.includeWildcard then ["*"] else [])]

def build (filter : InBookmarks) (context : CteRef) (state : QueryState) : Build :=
  let state := { state with usesUserData := true }
  let query := { selectStdFromCte context state with
    joins :=
      [innerJoin "files" (equals (.column "files" "id") (context.column "file_id")),
       innerJoin "user_data.bookmarks"
        (equals (.column "user_data.bookmarks" "sha256") (.column "files" "sha256"))]
    conditions := filter.criteria
    groupBy := getStdGroupBy context state }
  let rankExpr : Expr :=
    if filter.inBookmarks.filter then .aggregate "max" (.column "user_data.bookmarks" "time_added")
    else .val (.int 1)
  let query := if state.isCountQuery then query else addRankColumnExpr query filter.sort rankExpr
  .ok (wrapSorted state query context (state.cteName "InBookmarks") filter.sort [.files])

end InBookmarks

structure ProcessedBy where
  processedBy : String

def ProcessedBy.build (filter : ProcessedBy) (context : CteRef) (state : QueryState) : Build :=
  let joinCond :=
    if state.itemDataQuery then equals (.column "item_data" "source_id") (context.column "data_id")
    else equals (.column "item_data" "item_id") (context.column "item_id")
  let query := { selectStdFromCte context state with
    joins :=
      [innerJoin "item_data" joinCond,
       innerJoin "setters" (equals (.column "setters" "id") (.column "item_data" "setter_id"))]
    conditions := [equals (.column "setters" "name") (.val (.text filter.processedBy))]
    groupBy := getStdGroupBy context state }
  .ok (wrapUnsorted state query context (state.cteName "ProcessedBy") [.itemData, .setters])

structure FailedFor where
  failedFor : String

/-- Keyed on the item, also in a text query. -/
def FailedFor.build (filter : FailedFor) (context : CteRef) (state : QueryState) : Build :=
  let query := { selectStdFromCte context state with
    joins :=
      [innerJoin "item_extraction_errors"
        (equals (.column "item_extraction_errors" "item_id") (context.column "item_id")),
       innerJoinAs "setters" "failed_for_setters" (equals (.column "failed_for_setters" "id")
        (.column "item_extraction_errors" "setter_id"))]
    conditions :=
      [equals (.column "failed_for_setters" "name") (.val (.text filter.failedFor)),
       .compare .gte (.column "item_extraction_errors" "attempts")
        (.column "item_extraction_errors" "skip_after")]
    groupBy := getStdGroupBy context state }
  .ok (wrapUnsorted state query context (state.cteName "FailedFor") [])

structure DerivedDataArgs where
  setterName : String
  dataTypes : List String

structure HasUnprocessedData where
  hasDataUnprocessed : DerivedDataArgs

def HasUnprocessedData.build (filter : HasUnprocessedData) (context : CteRef)
    (state : QueryState) : Build :=
  let args := filter.hasDataUnprocessed
  let notExistsSubquery := Expr.notExists [("item_data", "derived_data"), ("setters", "setters")]
    (.and (equals (.column "setters" "id") (.column "derived_data" "setter_id"))
      (.and (equals (.column "derived_data" "source_id") (.column "src_item_data" "id"))
        (equals (.column "setters" "name") (.val (.text args.setterName)))))
  let query := { selectStdFromCte context state with
    joins := [innerJoinAs "item_data" "src_item_data"
      (equals (.column "src_item_data" "item_id") (context.column "item_id"))]
    conditions :=
      [inTexts (.column "src_item_data" "data_type") args.dataTypes,
       equals (.column "src_item_data" "is_placeholder") (.val (.int 0)),
       notExistsSubquery]
    groupBy := getStdGroupBy context state }
  .ok (wrapUnsorted state query context (state.cteName "HasUnprocessedData") [])

structure InPinboardArgs where
  filter : Bool := true
  pinboardIds : List Int := []
  user : String := "user"

structure InPinboard where
  inPinboard : InPinboardArgs

def InPinboard.build (filter : InPinboard) (context : CteRef) (state : QueryState) : Build :=
  let args := filter.inPinboard
  let state := { state with usesUserData := true }
  let query := { selectStdFromCte context state with
    joins :=
      [innerJoin "files" (equals (.column "files" "id") (context.column "file_id")),
       innerJoin "user_data.pinboard_version_items"
        (equals (.column "user_data.pinboard_version_items" "sha256") (.column "files" "sha256")),
       innerJoin "user_data.pinboards"
        (equals (.column "user_data.pinboards" "head_version_id")
          (.column "user_data.pinboard_version_items" "version_id"))]
    conditions :=
      [equals (.column "user_data.pinboards" "user") (.val (.text args.user))] ++
      if args.pinboardIds.isEmpty then []
      else [.isIn (.column "user_data.pinboards" "id") (args.pinboardIds.map .int)]
    groupBy := getStdGroupBy context state }
  .ok (wrapUnsorted state query context (state.cteName "InPinboard") [.files])

end Panoptikon.Pql
