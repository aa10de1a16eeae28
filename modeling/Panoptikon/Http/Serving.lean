import Panoptikon.Http.RangeHeader

/-!
# Serving a body

`serve` of `api/http_file.rs`: the conditional requests, the range decision and
the response. A partial response carries the bytes its headers name, whichever
kind of body they come from.
-/

namespace Panoptikon.Http

open Foundation Foundation.ByteRanges

structure ServeSpec where
  mimeType : Text
  etag : Text
  cacheControl : Text
  lastModified : Option Text
  /-- `content_disposition_value` of the type and the file name. -/
  contentDisposition : Option (List UInt8)

/-- An open handle; its size is what it was found to hold. -/
structure OpenFile where
  contents : List UInt8
  seeks : Bool
  size : Nat
  statted : size = contents.length

inductive ServeBody where
  | file (handle : OpenFile)
  | bytes (stored : List UInt8)

def ServeBody.contents : ServeBody → List UInt8
  | .file handle => handle.contents
  | .bytes stored => stored

def ServeBody.size : ServeBody → Nat
  | .file handle => handle.size
  | .bytes stored => stored.length

/-- The request's headers, each its first value where that is visible ASCII. -/
structure RequestHeaders where
  ifNoneMatch : Option Text
  ifModifiedSince : Option Text
  range : Option Text
  ifRange : Option Text

inductive Status where
  | ok
  | partialContent
  | notModified
  | rangeNotSatisfiable

structure Response where
  status : Status
  body : List UInt8
  acceptRanges : Option Text
  contentType : Option Text
  contentLength : Option Text
  contentRange : Option Text
  lastModified : Option Text
  etag : Option Text
  cacheControl : Option Text
  contentDisposition : Option (List UInt8)

inductive Failure where
  | read
  /-- An index out of the bytes. -/
  | panicked

/-- `HeaderValue::from_str`: no control characters but the tab. -/
def headerValue (text : Text) : Option Text :=
  if text.all fun char => (32 ≤ char.toNat && char.toNat ≠ 127) || char = '\t' then some text else none

def ifNoneMatchMatches (header etag : Text) : Bool :=
  Text.trim header = ['*'] ||
    (header.splitOn ',').any fun candidate =>
      Text.trimStartMatches "W/".toList (Text.trim candidate) = etag

/-- `If-None-Match` wins. -/
def isNotModified (spec : ServeSpec) (request : RequestHeaders) : Bool :=
  match request.ifNoneMatch with
  | some header => ifNoneMatchMatches header spec.etag
  | none => request.ifModifiedSince.any fun date => spec.lastModified = some (Text.trim date)

def notModifiedResponse (spec : ServeSpec) : Response where
  status := .notModified
  body := []
  acceptRanges := none
  contentType := none
  contentLength := none
  contentRange := none
  lastModified := spec.lastModified.bind headerValue
  etag := headerValue spec.etag
  cacheControl := headerValue spec.cacheControl
  contentDisposition := none

/-- The validator is an ETag or a date. -/
def ifRangeMatches (spec : ServeSpec) (header : Text) : Bool :=
  let ifRange := Text.trim header
  if ['"'].isPrefixOf ifRange || "W/".toList.isPrefixOf ifRange then ifRange = spec.etag
  else spec.lastModified = some ifRange

def rangeDecision (spec : ServeSpec) (request : RequestHeaders) (size : Nat) : RangeOutcome :=
  let range := request.range.elim .full (parseRangeHeader · size)
  if range ≠ .full ∧ request.ifRange.any (fun header => !ifRangeMatches spec header) then .full
  else range

/-- `bytes[start..=end]`. -/
def sliceInclusive (bytes : List UInt8) (start stop : Nat) : Except Failure (List UInt8) :=
  if start ≤ stop + 1 ∧ stop < bytes.length then .ok ((bytes.drop start).take (stop - start + 1))
  else .error .panicked

def ServeBody.slice (start stop : Nat) : ServeBody → Except Failure (List UInt8)
  | .file handle =>
      if handle.seeks then .ok ((handle.contents.drop start).take (stop - start + 1)) else .error .read
  | .bytes stored => sliceInclusive stored start stop

def contentRange (start stop size : Nat) : Text :=
  "bytes ".toList ++ Nat.toDigits 10 start ++ ['-'] ++ Nat.toDigits 10 stop ++ ['/'] ++ Nat.toDigits 10 size

def unsatisfiedRange (size : Nat) : Text := "bytes */".toList ++ Nat.toDigits 10 size

structure Parts where
  status : Status
  body : List UInt8
  length : Nat
  range : Option Text

def parts (range : RangeOutcome) (body : ServeBody) : Except Failure Parts :=
  match range with
  | .full => .ok { status := .ok, body := body.contents, length := body.size, range := none }
  | .partial_ start stop => do
      let slice ← body.slice start stop
      .ok { status := .partialContent, body := slice, length := stop - start + 1,
            range := some (contentRange start stop body.size) }
  | .unsatisfiable =>
      .ok { status := .rangeNotSatisfiable, body := [], length := 0,
            range := some (unsatisfiedRange body.size) }

def serve (spec : ServeSpec) (body : ServeBody) (request : RequestHeaders) : Except Failure Response :=
  if isNotModified spec request then .ok (notModifiedResponse spec)
  else do
    let parts ← parts (rangeDecision spec request body.size) body
    .ok {
      status := parts.status
      body := parts.body
      acceptRanges := some "bytes".toList
      contentType := headerValue spec.mimeType
      contentLength := headerValue (Nat.toDigits 10 parts.length)
      contentRange := parts.range.bind headerValue
      lastModified := spec.lastModified.bind headerValue
      etag := headerValue spec.etag
      cacheControl := headerValue spec.cacheControl
      contentDisposition := spec.contentDisposition }

theorem header_value_append {first second : Text} (isFirst : headerValue first = some first)
    (isSecond : headerValue second = some second) : headerValue (first ++ second) = some (first ++ second) := by
  have allowed {text : Text} (isValue : headerValue text = some text) :
      text.all (fun char => (32 ≤ char.toNat && char.toNat ≠ 127) || char = '\t') = true := by
    unfold headerValue at isValue
    split at isValue
    · rename_i allowed
      exact allowed
    · exact absurd isValue.symm (Option.some_ne_none _)
  apply if_pos
  rw [List.all_append, Bool.and_eq_true]
  exact ⟨allowed isFirst, allowed isSecond⟩

theorem header_value_digits (number : Nat) : headerValue (Nat.toDigits 10 number) = some (Nat.toDigits 10 number) := by
  apply if_pos
  rw [List.all_eq_true]
  intro char member
  have digit := Nat.isDigit_of_mem_toDigits (by decide) (by decide) member
  rw [Char.isDigit_iff_toNat] at digit
  have zero : '0'.toNat = 48 := rfl
  have nine : '9'.toNat = 57 := rfl
  rw [Bool.or_eq_true, Bool.and_eq_true, decide_eq_true_eq, decide_eq_true_eq]
  omega

theorem header_value_content_range (start stop size : Nat) :
    headerValue (contentRange start stop size) = some (contentRange start stop size) := by
  unfold contentRange
  apply header_value_append _ (header_value_digits size)
  apply header_value_append _ (by decide)
  apply header_value_append _ (header_value_digits stop)
  apply header_value_append _ (by decide)
  apply header_value_append (by decide) (header_value_digits start)

section PartialResponse

variable {spec : ServeSpec} {body : ServeBody} {request : RequestHeaders}

theorem body_size (body : ServeBody) : body.size = body.contents.length := by
  cases body with
  | file handle => exact handle.statted
  | bytes stored => rfl

theorem slice_eq {start stop : Nat} {slice : List UInt8} (sliced : body.slice start stop = .ok slice) :
    slice = (body.contents.drop start).take (stop - start + 1) := by
  cases body with
  | file handle =>
    rw [ServeBody.slice] at sliced
    split at sliced
    · cases sliced
      rfl
    · cases sliced
  | bytes stored =>
    rw [ServeBody.slice, sliceInclusive] at sliced
    split at sliced
    · cases sliced
      rfl
    · cases sliced

theorem range_decision_eq_partial {size start stop : Nat}
    (decided : rangeDecision spec request size = .partial_ start stop) :
    ∃ header, request.range = some header ∧ parseRangeHeader header size = .partial_ start stop := by
  unfold rangeDecision at decided
  dsimp only at decided
  split at decided
  · exact RangeOutcome.noConfusion decided
  · cases isRange : request.range with
    | none =>
      rw [isRange] at decided
      exact RangeOutcome.noConfusion decided
    | some header =>
      rw [isRange] at decided
      exact ⟨header, rfl, decided⟩

/-- A partial response is the bytes the parser named, with the headers that
name them. -/
theorem serve_partial {response : Response} (served : serve spec body request = .ok response)
    (isPartial : response.status = .partialContent) : ∃ header start stop, request.range = some header ∧
      parseRangeHeader header body.size = .partial_ start stop ∧
      response.body = (body.contents.drop start).take (stop - start + 1) ∧
      response.body.length = stop - start + 1 ∧
      response.contentLength = some (Nat.toDigits 10 (stop - start + 1)) ∧
      response.contentRange = some (contentRange start stop body.size) := by
  unfold serve at served
  split at served
  · cases served
    exact Status.noConfusion isPartial
  · cases decided : rangeDecision spec request body.size with
    | full | unsatisfiable =>
      rw [decided] at served
      cases served
      exact Status.noConfusion isPartial
    | partial_ start stop =>
      obtain ⟨header, isHeader, parsed⟩ := range_decision_eq_partial decided
      obtain ⟨ordered, inside⟩ := partial_in_body parsed
      rw [decided, parts] at served
      cases sliced : body.slice start stop with
      | error failure =>
        rw [sliced] at served
        cases served
      | ok slice =>
        rw [sliced] at served
        cases served
        have cut := slice_eq sliced
        have size := body_size body
        refine ⟨header, start, stop, isHeader, parsed, cut, ?_, header_value_digits _, ?_⟩
        · dsimp only
          rw [cut, List.length_take, List.length_drop]
          omega
        · exact header_value_content_range start stop body.size

end PartialResponse

/-- Every range set is answered by its specs and everything else is ignored; a
partial answer lies in the body and its response is exactly those bytes. White
space is taken wherever two parts meet. -/
theorem range_requests (header : Text) (size : Nat) :
    (∀ start stop, parseRangeHeader header size = .partial_ start stop → start ≤ stop ∧ stop < size) ∧
    (∀ specs, Lenient header specs → (∀ spec ∈ specs, spec.Below (2 ^ 64)) →
      (∀ start stop, parseRangeHeader header size = .partial_ start stop →
        ∃ before spec after, specs = before ++ spec :: after ∧
          (∀ position, spec.Selects size position ↔ start ≤ position ∧ position ≤ stop) ∧
          ∀ other ∈ before ++ after, ∀ position, ¬other.Selects size position) ∧
      (parseRangeHeader header size = .unsatisfiable ↔
        ∀ spec ∈ specs, ∀ position, ¬spec.Selects size position) ∧
      (parseRangeHeader header size = .full ↔ ∃ before first between second after,
        specs = before ++ first :: between ++ second :: after ∧
        (∃ position, first.Selects size position) ∧ ∃ position, second.Selects size position)) ∧
    ((∀ specs, ¬Lenient header specs) → ¬Signed header → parseRangeHeader header size = .full) ∧
    ∀ spec body request response, serve spec body request = .ok response →
      response.status = .partialContent →
      ∃ header start stop, request.range = some header ∧
        parseRangeHeader header body.size = .partial_ start stop ∧
        response.body = (body.contents.drop start).take (stop - start + 1) ∧
        response.body.length = stop - start + 1 ∧
        response.contentLength = some (Nat.toDigits 10 (stop - start + 1)) ∧
        response.contentRange = some (contentRange start stop body.size) := by
  refine ⟨fun start stop => partial_in_body, ?_, ?_, ?_⟩
  · intro specs lenient below
    have ordered := lenient_ordered lenient
    rw [parse_range_set lenient below size]
    exact ⟨fun start stop => answer_eq_partial ordered, answer_eq_unsatisfiable_iff ordered,
      answer_eq_full_iff ordered⟩
  · exact fun malformed unsigned => parse_malformed malformed unsigned size
  · exact fun spec body request response => serve_partial

theorem spec_has_no_space {text : Text} {spec : RangeSpec} (spelled : Spec NoGap text spec) : ' ' ∉ text := by
  have noDigit : ' '.isDigit = false := by decide
  have other : ' ' ≠ '-' := by decide
  have noGap {gap : Text} (isGap : NoGap gap) : ' ' ∉ gap := by
    rw [show gap = [] from isGap]
    exact List.not_mem_nil
  cases spelled with
  | bounded start beforeHyphen afterHyphen stop ordered =>
    simp only [List.mem_append, List.mem_cons, not_or]
    exact ⟨⟨⟨start.absent noDigit, noGap beforeHyphen⟩, other, noGap afterHyphen⟩, stop.absent noDigit⟩
  | unbounded start beforeHyphen =>
    simp only [List.mem_append, List.mem_singleton, not_or]
    exact ⟨⟨start.absent noDigit, noGap beforeHyphen⟩, other⟩
  | suffix afterHyphen digits =>
    simp only [List.mem_append, List.mem_cons, not_or]
    exact ⟨⟨other, noGap afterHyphen⟩, digits.absent noDigit⟩

/-- White space inside a spec is no RFC range set, and is taken as one. -/
theorem spaced_range_served :
    (∀ specs, ¬Strict "bytes=0 - 4".toList specs) ∧
      parseRangeHeader "bytes=0 - 4".toList 1000 = .partial_ 0 4 := by
  constructor
  · rintro specs ⟨before, unit, lead, list, after, isBefore, isLead, isAfter, isUnit, elements, -, same⟩
    rw [show before = [] from isBefore, show lead = [] from isLead, show after = [] from isAfter,
      List.nil_append, List.nil_append, List.append_nil] at same
    have length : unit.length = 6 := by
      have mapped := congrArg List.length isUnit
      rw [Text.toAsciiLowercase, List.length_map] at mapped
      exact mapped
    have listIs : list = "0 - 4".toList := by
      have dropped := congrArg (List.drop 6) same
      rw [← length, List.drop_left, length] at dropped
      exact dropped.symm
    subst listIs
    generalize isList : "0 - 4".toList = text at elements
    cases elements with
    | last element =>
        cases element with
        | empty => exact absurd isList (by decide)
        | spec spelled =>
            subst isList
            exact spec_has_no_space spelled (by decide)
    | @more first beforeComma afterComma rest _ _ _ _ _ _ =>
        have comma : ',' ∈ first ++ beforeComma ++ ',' :: afterComma ++ rest := by simp
        rw [← isList] at comma
        exact absurd comma (by decide)
  · decide

end Panoptikon.Http
