import Panoptikon.Inferio.Multipart

/-!
# A predict response survives the HTTP hop

The outputs of a worker come back as they were, with every error at its input,
unless they travel as the parts of a multipart body and one of them holds the
boundary or ends in a line end.
-/

namespace Panoptikon.Inferio

open Foundation

def WorkerOutput.slot : WorkerOutput → Except SlotError Payload
  | .bytes content => .ok (.binary content)
  | .json value => .ok (.json value)
  | .error failure => .error failure

/-- The payloads that survive, and every error at its input. -/
def Delivered (outputs : List WorkerOutput) (response : PredictResponse) : Prop :=
  response.outputs.payloads = survivors (outputs.map WorkerOutput.slot) ∧
    response.errors = (failures 0 (outputs.map WorkerOutput.slot)).map SlotError.at

/-- A JSON payload that is shaped like neither an error slot nor a base64 wrapper. -/
def PlainOutput : WorkerOutput → Prop
  | .json value => slotErrorFromJson value = none ∧ isBase64Wrapper value = false
  | _ => True

def WorkerOutput.isJson : WorkerOutput → Bool
  | .json _ => true
  | _ => false

/-- The payloads of a batch are all JSON or all binary. -/
def OneKind (outputs : List WorkerOutput) : Prop :=
  (∀ output ∈ outputs, output.isError ∨ output.isJson) ∨ ∀ output ∈ outputs, output.isError ∨ isBytes output

/-- The outputs that travel as parts. -/
def TravelsInParts (outputs : List WorkerOutput) : Prop :=
  (∀ output ∈ outputs, isBytes output) ∧ outputs.length ≠ 1

variable {outputs : List WorkerOutput}

theorem bytes_are_no_errors (allBytes : ∀ output ∈ outputs, isBytes output) :
    outputs.any WorkerOutput.isError = false := by
  rw [List.any_eq_false]
  intro output member
  cases output with
  | error error => exact absurd (allBytes _ member) (by simp [isBytes, WorkerOutput.bytes?])
  | _ => simp [WorkerOutput.isError]

variable {codec : JsonCodec}

theorem encode_parts (inParts : TravelsInParts outputs) : encodeOutputResponse codec outputs =
      ("multipart/mixed; boundary=".toList ++ boundary,
        encodeParts 0 (outputs.filterMap WorkerOutput.bytes?) ++ (marker boundary ++ closing)) := by
  have noErrors := bytes_are_no_errors inParts.1
  have allBytes : outputs.all isBytes = true := List.all_eq_true.mpr inParts.1
  unfold encodeOutputResponse
  simp only [noErrors, allBytes]
  split
  · exact absurd rfl inParts.2
  · rfl

theorem encode_json (someOther : ¬∀ output ∈ outputs, isBytes output) : encodeOutputResponse codec outputs =
      ("application/json".toList, codec.toVec (envelope codec outputs)) := by
  have notAll : outputs.all isBytes = false := by
    rwa [← Bool.not_eq_true, List.all_eq_true]
  unfold encodeOutputResponse
  simp only [notAll, Bool.and_false]
  split
  · exact absurd (fun output member => by rw [List.mem_singleton.mp member]; rfl) someOther
  · rfl

theorem parse_parts_response (codec : JsonCodec) (body : List UInt8) :
    parsePredictResponse codec ("multipart/mixed; boundary=".toList ++ boundary) body =
      .ok (.plain (.binary (parseMultipartOutputs body boundary))) := by
  have noJson : Text.contains ("multipart/mixed; boundary=".toList ++ boundary)
      "application/json".toList = false := by decide
  have mixed : Text.contains ("multipart/mixed; boundary=".toList ++ boundary)
      "multipart/mixed".toList = true := by decide
  have bounded : extractBoundary ("multipart/mixed; boundary=".toList ++ boundary) = some boundary := by
    decide
  rw [parsePredictResponse, noJson, mixed, bounded]
  rfl

theorem parse_stream_response (codec : JsonCodec) (body : List UInt8) :
    parsePredictResponse codec "application/octet-stream".toList body = .ok (.plain (.binary [body])) := by
  have noJson : Text.contains "application/octet-stream".toList "application/json".toList = false := by
    decide
  have notMixed : Text.contains "application/octet-stream".toList "multipart/mixed".toList = false := by
    decide
  have stream : Text.contains "application/octet-stream".toList "application/octet-stream".toList = true := by
    decide
  rw [parsePredictResponse, noJson, notMixed, stream]
  rfl

theorem parse_json_response
    (readsBack : codec.fromSlice (codec.toVec (envelope codec outputs)) = some (envelope codec outputs)) :
    parsePredictResponse codec "application/json".toList (codec.toVec (envelope codec outputs)) =
      parseJsonOutputs codec (outputs.map (encodeOutput codec)) := by
  have isJson : Text.contains "application/json".toList "application/json".toList = true := by decide
  rw [parsePredictResponse, isJson]
  simp only [if_true, readsBack]
  rfl

theorem slot_error_to_json (error : SlotError) : slotErrorFromJson error.toJson = some (.ok error) := by
  rcases error with ⟨errorClass, message⟩
  cases errorClass <;> rfl

theorem slot_error_wrapper (codec : JsonCodec) (content : List UInt8) :
    slotErrorFromJson (encodeOutput codec (.bytes content)) = none := rfl

theorem wrapper_is_wrapper (codec : JsonCodec) (content : List UInt8) :
    isBase64Wrapper (encodeOutput codec (.bytes content)) = true := rfl

/-- The outputs that are no errors. -/
def payloadsOf (outputs : List WorkerOutput) : List WorkerOutput :=
  outputs.filter fun output => !output.isError

theorem split_encoded_outputs (codec : JsonCodec) (plain : ∀ output ∈ outputs, PlainOutput output) (index : Nat) :
    splitOutputs index (outputs.map (encodeOutput codec)) =
      .ok ((failures index (outputs.map WorkerOutput.slot)).map SlotError.at,
        (payloadsOf outputs).map (encodeOutput codec)) := by
  induction outputs generalizing index with
  | nil => rfl
  | cons output outputs ih =>
    rw [List.forall_mem_cons] at plain
    have later := ih plain.2 (index + 1)
    rw [List.map_cons, splitOutputs]
    cases output with
    | bytes content =>
      rw [slot_error_wrapper, later]
      rfl
    | json value =>
      have ordinary : slotErrorFromJson (encodeOutput codec (.json value)) = none := plain.1.1
      rw [ordinary, later]
      rfl
    | error error =>
      have slot : slotErrorFromJson (encodeOutput codec (.error error)) = some (.ok error) :=
        slot_error_to_json error
      rw [slot, later]
      rfl

theorem survivors_json (allJson : ∀ output ∈ outputs, output.isError ∨ output.isJson) :
    (PredictOutput.json ((payloadsOf outputs).map (encodeOutput codec))).payloads =
      survivors (outputs.map WorkerOutput.slot) := by
  induction outputs with
  | nil => rfl
  | cons output outputs ih =>
    rw [List.forall_mem_cons] at allJson
    have later := ih allJson.2
    cases output with
    | bytes content => exact absurd allJson.1 (by simp [WorkerOutput.isError, WorkerOutput.isJson])
    | json value => exact congrArg (Payload.json value :: ·) later
    | error error => exact later

theorem survivors_bytes (allBytes : ∀ output ∈ outputs, output.isError ∨ isBytes output) :
    (PredictOutput.binary (outputs.filterMap WorkerOutput.bytes?)).payloads =
      survivors (outputs.map WorkerOutput.slot) := by
  induction outputs with
  | nil => rfl
  | cons output outputs ih =>
    rw [List.forall_mem_cons] at allBytes
    have later := ih allBytes.2
    cases output with
    | bytes content => exact congrArg (Payload.binary content :: ·) later
    | json value =>
      exact absurd allBytes.1 (by simp [WorkerOutput.isError, isBytes, WorkerOutput.bytes?])
    | error error => exact later

theorem wrapped_json (plain : ∀ output ∈ outputs, PlainOutput output)
    (allJson : ∀ output ∈ outputs, output.isError ∨ output.isJson) :
    ((payloadsOf outputs).map (encodeOutput codec)).filter isBase64Wrapper = [] := by
  rw [List.filter_eq_nil_iff]
  intro value member
  obtain ⟨output, listed, rfl⟩ := List.mem_map.mp member
  obtain ⟨inside, payload⟩ := List.mem_filter.mp listed
  cases output with
  | bytes content =>
    exact absurd (allJson _ inside) (by simp [WorkerOutput.isError, WorkerOutput.isJson])
  | json value =>
    rw [Bool.not_eq_true]
    exact (plain _ inside).2
  | error error => exact absurd payload (by simp [WorkerOutput.isError])

theorem wrapped_bytes (allBytes : ∀ output ∈ outputs, output.isError ∨ isBytes output) :
    ((payloadsOf outputs).map (encodeOutput codec)).filter isBase64Wrapper =
      (payloadsOf outputs).map (encodeOutput codec) := by
  rw [List.filter_eq_self]
  intro value member
  obtain ⟨output, listed, rfl⟩ := List.mem_map.mp member
  obtain ⟨inside, payload⟩ := List.mem_filter.mp listed
  cases output with
  | bytes content => exact wrapper_is_wrapper codec content
  | json value =>
    exact absurd (allBytes _ inside) (by simp [WorkerOutput.isError, isBytes, WorkerOutput.bytes?])
  | error error => exact absurd payload (by simp [WorkerOutput.isError])

theorem decode_wrappers
    (base64 : ∀ content, .bytes content ∈ outputs →
      codec.decodeBase64 (codec.encodeBase64 content) = some content)
    (allBytes : ∀ output ∈ outputs, output.isError ∨ isBytes output) :
    ((payloadsOf outputs).map (encodeOutput codec)).mapM (decodeBase64Wrapper codec) =
      .ok (outputs.filterMap WorkerOutput.bytes?) := by
  induction outputs with
  | nil => rfl
  | cons output outputs ih =>
    rw [List.forall_mem_cons] at allBytes
    have later := ih (fun content member => base64 content (List.mem_cons_of_mem _ member)) allBytes.2
    cases output with
    | bytes content =>
      have decoded : decodeBase64Wrapper codec (encodeOutput codec (.bytes content)) = .ok content := by
        have read := base64 content List.mem_cons_self
        have stored : ((encodeOutput codec (.bytes content)).get "content").bind JsonValue.asStr =
            some (codec.encodeBase64 content) := rfl
        simp only [decodeBase64Wrapper, stored, read]
      have kept : payloadsOf (.bytes content :: outputs) = .bytes content :: payloadsOf outputs := rfl
      rw [kept, List.map_cons, List.mapM_cons, decoded, later]
      rfl
    | json value =>
      exact absurd allBytes.1 (by simp [WorkerOutput.isError, isBytes, WorkerOutput.bytes?])
    | error error => exact later

theorem failures_nil_iff (index : Nat) (outputs : List WorkerOutput) :
    failures index (outputs.map WorkerOutput.slot) = [] ↔ ∀ output ∈ outputs, output.isError = false := by
  induction outputs generalizing index with
  | nil => simp [failures]
  | cons output outputs ih =>
    rw [List.forall_mem_cons, ← ih (index + 1)]
    cases output <;> simp [failures, WorkerOutput.slot, WorkerOutput.isError]

theorem parse_json_delivered
    (base64 : ∀ content, .bytes content ∈ outputs →
      codec.decodeBase64 (codec.encodeBase64 content) = some content)
    (plain : ∀ output ∈ outputs, PlainOutput output) (oneKind : OneKind outputs)
    (someOther : ¬∀ output ∈ outputs, isBytes output) :
    ∃ response, parseJsonOutputs codec (outputs.map (encodeOutput codec)) = .ok response ∧
      Delivered outputs response := by
  rw [parseJsonOutputs, split_encoded_outputs codec plain 0]
  simp only [bind, Except.bind, pure, Except.pure]
  by_cases noErrors : ∀ output ∈ outputs, output.isError = false
  · have none := (failures_nil_iff 0 outputs).mpr noErrors
    have allJson : ∀ output ∈ outputs, output.isError ∨ output.isJson := by
      refine oneKind.resolve_right fun allBytes => someOther fun output member => ?_
      exact (allBytes output member).resolve_left (by simp [noErrors output member])
    refine ⟨_, by rw [none]; rfl, survivors_json allJson, ?_⟩
    rw [none]
    rfl
  · have someErrors : ((failures 0 (outputs.map WorkerOutput.slot)).map SlotError.at).isEmpty = false := by
      rw [List.isEmpty_eq_false_iff, ne_eq, List.map_eq_nil_iff, failures_nil_iff]
      exact noErrors
    rw [someErrors]
    simp only [Bool.false_eq_true, if_false]
    rcases oneKind with allJson | allBytes
    · rw [wrapped_json plain allJson]
      exact ⟨_, rfl, survivors_json allJson, rfl⟩
    · rw [wrapped_bytes allBytes, decode_wrappers base64 allBytes]
      simp only [ne_eq, not_true_eq_false, if_false]
      split
      · rename_i empty
        refine ⟨_, rfl, ?_, rfl⟩
        have nothing := List.eq_nil_of_length_eq_zero empty
        have bytesNil := decode_wrappers base64 allBytes
        rw [nothing] at bytesNil
        have contents : [] = outputs.filterMap WorkerOutput.bytes? := Except.ok.inj bytesNil
        rw [nothing, ← survivors_bytes allBytes, ← contents]
        rfl
      · exact ⟨_, rfl, survivors_bytes allBytes, rfl⟩

/-- What the client makes of what the server sends. -/
def hop (codec : JsonCodec) (outputs : List WorkerOutput) : Except ResponseFault PredictResponse :=
  parsePredictResponse codec (encodeOutputResponse codec outputs).1 (encodeOutputResponse codec outputs).2

theorem hop_parts (inParts : TravelsInParts outputs) :
    hop codec outputs = .ok (.plain (.binary (parseMultipartOutputs
      (encodeParts 0 (outputs.filterMap WorkerOutput.bytes?) ++ (marker boundary ++ closing)) boundary))) := by
  rw [hop, encode_parts inParts]
  exact parse_parts_response codec _

theorem delivered_bytes (allBytes : ∀ output ∈ outputs, isBytes output) :
    Delivered outputs (.plain (.binary (outputs.filterMap WorkerOutput.bytes?))) := by
  refine ⟨survivors_bytes fun output member => Or.inr (allBytes output member), ?_⟩
  have noErrors : ∀ output ∈ outputs, output.isError = false := by
    have none := bytes_are_no_errors allBytes
    simpa using none
  rw [(failures_nil_iff 0 outputs).mpr noErrors]
  rfl

theorem delivered_contents {contents : List (List UInt8)} (allBytes : ∀ output ∈ outputs, isBytes output)
    (delivered : Delivered outputs (.plain (.binary contents))) :
    contents = outputs.filterMap WorkerOutput.bytes? := by
  have expected := (delivered_bytes allBytes).1
  have same : (PredictOutput.binary contents).payloads =
      (PredictOutput.binary (outputs.filterMap WorkerOutput.bytes?)).payloads :=
    delivered.1.trans expected.symm
  exact List.map_injective_iff.mpr (fun first second => Payload.binary.inj) same

theorem hop_parts_iff (inParts : TravelsInParts outputs) :
    (∃ response, hop codec outputs = .ok response ∧ Delivered outputs response) ↔
      ∀ content, .bytes content ∈ outputs → Readable content := by
  have listed : ∀ content, content ∈ outputs.filterMap WorkerOutput.bytes? ↔ .bytes content ∈ outputs := by
    intro content
    rw [List.mem_filterMap]
    constructor
    · rintro ⟨output, member, isContent⟩
      cases output with
      | bytes other =>
        cases isContent
        exact member
      | json | error => cases isContent
    · exact fun member => ⟨_, member, rfl⟩
  rw [hop_parts inParts]
  constructor
  · rintro ⟨response, returned, delivered⟩ content member
    cases returned
    have same := delivered_contents inParts.1 delivered
    have readable := parse_multipart_readable
      (encodeParts 0 (outputs.filterMap WorkerOutput.bytes?) ++ (marker boundary ++ closing))
    rw [same] at readable
    exact readable content ((listed content).mpr member)
  · intro readable
    refine ⟨_, rfl, ?_⟩
    rw [parse_multipart_encoded (fun content member => (readable content ((listed content).mp member)).1)
      fun content member => (readable content ((listed content).mp member)).2]
    exact delivered_bytes inParts.1

/-- A list of slots survives the hop exactly when it does not travel in parts or every part is
readable. -/
theorem response_survives_iff (codec : JsonCodec) (outputs : List WorkerOutput)
    (base64 : ∀ content, .bytes content ∈ outputs →
      codec.decodeBase64 (codec.encodeBase64 content) = some content)
    (readsBack : codec.fromSlice (codec.toVec (envelope codec outputs)) = some (envelope codec outputs))
    (plain : ∀ output ∈ outputs, PlainOutput output) (oneKind : OneKind outputs) :
    (∃ response, hop codec outputs = .ok response ∧ Delivered outputs response) ↔
      (TravelsInParts outputs → ∀ content, .bytes content ∈ outputs → Readable content) := by
  by_cases inParts : TravelsInParts outputs
  · rw [hop_parts_iff inParts, forall_prop_of_true inParts]
  · rw [forall_prop_of_false inParts, iff_true]
    by_cases allBytes : ∀ output ∈ outputs, isBytes output
    · obtain ⟨output, rfl⟩ := List.length_eq_one_iff.mp
        (of_not_not fun several => inParts ⟨allBytes, several⟩)
      cases output with
      | bytes content =>
          exact ⟨_, parse_stream_response codec content, delivered_bytes allBytes⟩
      | json | error =>
          exact absurd (allBytes _ List.mem_cons_self) (by simp [isBytes, WorkerOutput.bytes?])
    · obtain ⟨response, returned, delivered⟩ := parse_json_delivered base64 plain oneKind allBytes
      refine ⟨response, ?_, delivered⟩
      rw [hop, encode_json allBytes, parse_json_response readsBack, returned]

/-- What `serde_json` and `base64` write and read for the batch below. -/
def rejectedCodec : JsonCodec where
  toVec _ := Text.utf8 ("\x7b\"outputs\":[\x7b\"__type__\":\"base64\",\"content\":\"AQI=\"\x7d,".toList ++
    "\x7b\"__error__\":\x7b\"class\":\"input\",\"message\":\"bad\"\x7d\x7d]\x7d".toList)
  fromSlice _ := some (.object [("outputs", .array [
    .object [("__type__", .string "base64"), ("content", .string "AQI=")],
    .object [("__error__", .object [("class", .string "input"), ("message", .string "bad")])]])])
  encodeBase64 _ := "AQI="
  decodeBase64 _ := some [1, 2]

theorem rejected_input_survives :
    ∃ response, hop rejectedCodec [.bytes [1, 2], .error ⟨.input, "bad"⟩] = .ok response ∧
      Delivered [.bytes [1, 2], .error ⟨.input, "bad"⟩] response := by
  refine (response_survives_iff rejectedCodec [.bytes [1, 2], .error ⟨.input, "bad"⟩] ?_ rfl ?_ ?_).mpr ?_
  · intro content member
    simp only [List.mem_cons, WorkerOutput.bytes.injEq, reduceCtorEq, List.not_mem_nil, or_false] at member
    rw [member]
    rfl
  · intro output member
    rcases List.mem_cons.mp member with rfl | member
    · trivial
    · rw [List.mem_singleton.mp member]
      trivial
  · exact Or.inr (by decide)
  · exact fun inParts => absurd (inParts.1 (.error ⟨.input, "bad"⟩) (by simp)) (by decide)

/-- A payload that ends in a line end comes back without it. -/
theorem line_end_is_lost : ¬∃ (codec : JsonCodec) (response : _),
    hop codec [.bytes [1, 13, 10], .bytes []] = .ok response ∧
      Delivered [.bytes [1, 13, 10], .bytes []] response := by
  rintro ⟨codec, survives⟩
  have inParts : TravelsInParts [.bytes [1, 13, 10], .bytes []] := ⟨by decide, by decide⟩
  have readable := (hop_parts_iff inParts).mp survives [1, 13, 10] List.mem_cons_self
  exact readable.2 (by decide)

end Panoptikon.Inferio
