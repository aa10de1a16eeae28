import Panoptikon.Foundation.ByteText
import Panoptikon.Foundation.Fallible
import Panoptikon.Pql.Builder

/-!
# Preprocessing

`preprocess_query` of `pql/preprocess.rs`, the path without an inference
service: every filter is validated, filters that ask for nothing are pruned,
and a connective that is left with one operand gives way to it.
-/

namespace Panoptikon.Pql

open Foundation Foundation.Sql

/-- What preprocessing calls outside this file: the query rewriter, which splits
its text into shell words, and the reader of base64 embeddings. -/
structure Outside where
  parseAndEscapeQuery : String → String
  extractEmbeddings : String → Except String (List UInt8)

/-- `text.trim().is_empty()`. -/
def isBlank (text : String) : Bool := text.toList.all Text.isWhitespace

def MatchValue.isEmpty (values : MatchValue) : Bool :=
  Column.collected.all fun column => (values column).isNone

def MatchValues.isEmpty (values : MatchValues) : Bool :=
  Column.collected.all fun column => (values column).isNone

/-- Drops the operands without a field; nothing is left when none had one. -/
def cleanMatchOps (ops : MatchOps) : Option MatchOps :=
  let value (operand : Option MatchValue) : Option MatchValue :=
    operand.filter fun values => !values.isEmpty
  let list (operand : Option MatchValues) : Option MatchValues :=
    operand.filter fun values => !values.isEmpty
  let cleaned : MatchOps := {
    eq := value ops.eq, neq := value ops.neq
    in_ := list ops.in_, nin := list ops.nin
    gt := value ops.gt, gte := value ops.gte
    lt := value ops.lt, lte := value ops.lte
    startswith := list ops.startswith, not_startswith := list ops.not_startswith
    endswith := list ops.endswith, not_endswith := list ops.not_endswith
    contains := list ops.contains, not_contains := list ops.not_contains }
  if cleaned.operands.isEmpty then none else some cleaned

def cleanMatches (matches_ : Matches) : Option Matches :=
  match matches_ with
  | .ops ops => (cleanMatchOps ops).map .ops
  | .and_ operands =>
      let cleaned := operands.filterMap cleanMatchOps
      if cleaned.isEmpty then none else some (.and_ cleaned)
  | .or_ operands =>
      let cleaned := operands.filterMap cleanMatchOps
      if cleaned.isEmpty then none else some (.or_ cleaned)
  | .not_ operand => (cleanMatchOps operand).map .not_

def Match.validate (filter : Match) : Option Match := (cleanMatches filter.match_).map Match.mk

section Validate

variable (outside : Outside)

def MatchPath.validate (filter : MatchPath) : Option MatchPath :=
  let args := filter.matchPath
  if isBlank args.match_ then none
  else if args.rawFts5Match then some filter
  else some { filter with
    matchPath := { args with match_ := outside.parseAndEscapeQuery args.match_ } }

/-- A filter-only search has no rank and no snippet, and its text is ignored. -/
def MatchText.validate (filter : MatchText) : Option MatchText :=
  if !filter.matchText.filterOnly && isBlank filter.matchText.match_ then none
  else
    let filter :=
      if filter.matchText.filterOnly then
        { filter with
          matchText := { filter.matchText with selectSnippetAs := none, match_ := "" }
          sort := { filter.sort with orderBy := false, selectAs := none, rowN := false } }
      else filter
    if filter.matchText.rawFts5Match then some filter
    else some { filter with matchText := { filter.matchText with
      match_ := outside.parseAndEscapeQuery filter.matchText.match_ } }

def MatchTags.validate (filter : MatchTags) : Option MatchTags :=
  let args := filter.matchTags
  if args.tags.isEmpty then none
  else if args.allSettersRequired && args.setters.isEmpty then
    some { filter with matchTags := { args with allSettersRequired := false } }
  else some filter

def InBookmarks.validate (filter : InBookmarks) : Option InBookmarks :=
  if filter.inBookmarks.filter then some filter else none

def InPinboard.validate (filter : InPinboard) : Option InPinboard :=
  if filter.inPinboard.filter then some filter else none

def ProcessedBy.validate (filter : ProcessedBy) : Option ProcessedBy :=
  if isBlank filter.processedBy then none else some filter

def FailedFor.validate (filter : FailedFor) : Option FailedFor :=
  if isBlank filter.failedFor then none else some filter

def HasUnprocessedData.validate (filter : HasUnprocessedData) : Option HasUnprocessedData :=
  let args := filter.hasDataUnprocessed
  if isBlank args.setterName || args.dataTypes.isEmpty then none else some filter

def validateQuantArgs (index : IndexMode) (k : Int) : Except Failure Unit :=
  if index = .ann then .error (.invalid "index \"ann\" is reserved and not yet available")
  else if k < 1 then .error (.invalid "k must be a positive integer")
  else .ok ()

/-- A blank variant names no profile. -/
def normalizeVariant (variant : Option String) : Option String :=
  variant.filter fun name => !isBlank name

def validateQuantArgsSync (index : IndexMode) (variant : Option String) (k : Int)
    (resolved : Bool) : Except Failure Unit := do
  validateQuantArgs index k
  if !resolved && (index = .quant || (normalizeVariant variant).isSome) then
    .error (.invalid ("selecting a vector quant profile (index \"quant\" or `variant`) " ++
      "requires async preprocessing"))
  else .ok ()

def extractOrFail (query : String) : Except Failure (List UInt8) :=
  (outside.extractEmbeddings query).mapError .invalid

def SemanticTextSearch.validateSync (filter : SemanticTextSearch) :
    Except Failure (Option SemanticTextSearch) := do
  let args := filter.textEmbeddings
  if isBlank args.query then return none
  validateQuantArgsSync args.index args.variant args.k args.quant.isSome
  if args.embedding.isSome then return some filter
  if args.embed then
    .error (.invalid "text_embeddings requires async preprocessing to embed the query")
  else
    let embedding ← extractOrFail outside args.query
    return some { filter with textEmbeddings := { args with embedding := some embedding } }

def SemanticImageSearch.validateSync (filter : SemanticImageSearch) :
    Except Failure (Option SemanticImageSearch) := do
  let args := filter.imageEmbeddings
  if isBlank args.query then return none
  validateQuantArgsSync args.index args.variant args.k args.quant.isSome
  let embedding ←
    match args.embedding with
    | some embedding => pure embedding
    | none =>
        if args.embed then
          .error (.invalid "image_embeddings requires async preprocessing to embed the query")
        else extractOrFail outside args.query
  if args.distanceFuncOverride.isNone then
    .error (.invalid ("image_embeddings requires async preprocessing to apply distance " ++
      "function overrides"))
  else
    return some { filter with imageEmbeddings := { args with
      embedding := some embedding
      srcText := if args.clipXmodal then args.srcText else none } }

def SimilarTo.validateSync (filter : SimilarTo) : Except Failure (Option SimilarTo) := do
  let args := filter.similarTo
  if isBlank args.target || isBlank args.model then return none
  validateQuantArgsSync args.index args.variant args.k args.quant.isSome
  if args.forceDistanceFunction.getD false then return some filter
  else .error (.invalid ("similar_to requires async preprocessing to apply distance " ++
    "function overrides"))

def Filter.validate (filter : Filter) : Except Failure (Option Filter) :=
  match filter with
  | .match_ filter => .ok (filter.validate.map .match_)
  | .matchPath filter => .ok ((filter.validate outside).map .matchPath)
  | .matchText filter => .ok ((filter.validate outside).map .matchText)
  | .semanticTextSearch filter =>
      (filter.validateSync outside).map fun kept => kept.map .semanticTextSearch
  | .semanticImageSearch filter =>
      (filter.validateSync outside).map fun kept => kept.map .semanticImageSearch
  | .similarTo filter => filter.validateSync.map fun kept => kept.map .similarTo
  | .matchTags filter => .ok (filter.validate.map .matchTags)
  | .inBookmarks filter => .ok (filter.validate.map .inBookmarks)
  | .processedBy filter => .ok (filter.validate.map .processedBy)
  | .hasUnprocessedData filter => .ok (filter.validate.map .hasUnprocessedData)
  | .failedFor filter => .ok (filter.validate.map .failedFor)
  | .inPinboard filter => .ok (filter.validate.map .inPinboard)

/-- What a connective becomes when these operands are left. -/
def collapse (connective : List QueryElement → QueryElement) :
    List QueryElement → Option QueryElement
  | [] => none
  | [operand] => some operand
  | operands => some (connective operands)

mutual

def preprocessQuery : QueryElement → Except Failure (Option QueryElement)
  | .and_ operands => do return collapse .and_ (← preprocessAll operands)
  | .or_ operands => do return collapse .or_ (← preprocessAll operands)
  | .not_ operand => do return (← preprocessQuery operand).map .not_
  | .filter filter => do return (← filter.validate outside).map .filter

/-- The operands that are left. -/
def preprocessAll : List QueryElement → Except Failure (List QueryElement)
  | [] => .ok []
  | operand :: rest => do
      let kept ← preprocessQuery operand
      return kept.toList ++ (← preprocessAll rest)

end

end Validate

/-- `build_query`. -/
def buildQuery (outside : Outside) (floats : FloatText) (input : PqlQuery) (mode : BuildMode) :
    Except Failure PqlBuilderResult := do
  let queryRoot ←
    match input.query with
    | some root => preprocessQuery outside root
    | none => pure none
  buildQueryWithRoot floats input mode queryRoot

mutual

/-- Every connective has two operands or more. -/
def QueryElement.Preprocessed : QueryElement → Prop
  | .and_ operands | .or_ operands => 2 ≤ operands.length ∧ AllPreprocessed operands
  | .not_ operand => operand.Preprocessed
  | .filter _ => True

def AllPreprocessed : List QueryElement → Prop
  | [] => True
  | operand :: rest => operand.Preprocessed ∧ AllPreprocessed rest

end

theorem all_preprocessed_append {first second : List QueryElement}
    (left : AllPreprocessed first) (right : AllPreprocessed second) : AllPreprocessed (first ++ second) := by
  induction first with
  | nil => exact right
  | cons operand rest ih => exact ⟨left.1, ih left.2⟩

theorem collapse_preprocessed {connective : List QueryElement → QueryElement}
    (shape : ∀ operands, 2 ≤ operands.length → AllPreprocessed operands →
      (connective operands).Preprocessed) {operands : List QueryElement} {left : QueryElement}
    (all : AllPreprocessed operands) (collapsed : collapse connective operands = some left) :
    left.Preprocessed := by
  match operands, collapsed with
  | [operand], collapsed =>
    cases collapsed
    exact all.1
  | first :: second :: rest, collapsed =>
    cases collapsed
    exact shape _ (by simp) all

mutual

theorem preprocess_preprocessed (outside : Outside) : ∀ (element : QueryElement)
    {left : QueryElement}, preprocessQuery outside element = .ok (some left) → left.Preprocessed
  | .and_ operands, left, returned => by
      rw [preprocessQuery] at returned
      obtain ⟨kept, visited, collapsed⟩ := bind_ok returned
      exact @collapse_preprocessed .and_ (fun _ long all => ⟨long, all⟩) _ _
        (preprocess_all_preprocessed outside operands visited) (Except.ok.inj collapsed)
  | .or_ operands, left, returned => by
      rw [preprocessQuery] at returned
      obtain ⟨kept, visited, collapsed⟩ := bind_ok returned
      exact @collapse_preprocessed .or_ (fun _ long all => ⟨long, all⟩) _ _
        (preprocess_all_preprocessed outside operands visited) (Except.ok.inj collapsed)
  | .not_ operand, left, returned => by
      rw [preprocessQuery] at returned
      obtain ⟨kept, visited, mapped⟩ := bind_ok returned
      obtain ⟨inner, isKept, rfl⟩ := Option.map_eq_some_iff.mp (Except.ok.inj mapped)
      subst isKept
      have kept : inner.Preprocessed := preprocess_preprocessed outside operand visited
      exact kept
  | .filter filter, left, returned => by
      rw [preprocessQuery] at returned
      obtain ⟨kept, _, mapped⟩ := bind_ok returned
      obtain ⟨inner, _, rfl⟩ := Option.map_eq_some_iff.mp (Except.ok.inj mapped)
      trivial

theorem preprocess_all_preprocessed (outside : Outside) : ∀ (elements : List QueryElement)
    {left : List QueryElement}, preprocessAll outside elements = .ok left → AllPreprocessed left
  | [], left, returned => by
      cases returned
      trivial
  | operand :: rest, left, returned => by
      rw [preprocessAll] at returned
      obtain ⟨kept, visited, next⟩ := bind_ok returned
      obtain ⟨others, later, joined⟩ := bind_ok next
      cases joined
      refine all_preprocessed_append ?_ (preprocess_all_preprocessed outside rest later)
      cases kept with
      | none => trivial
      | some inner => exact ⟨preprocess_preprocessed outside operand visited, trivial⟩

end

end Panoptikon.Pql
