import Panoptikon.Foundation.Slots
import Panoptikon.Foundation.Subslice
import Panoptikon.Foundation.TextParts
import Panoptikon.Inferio.Wire

/-!
# The predict response over HTTP

`encode_output_response` of `inferio/http.rs` and `parse_predict_response` of
`inferio_client.rs`. JSON text and base64 are written and read by codecs that are
not part of the source.
-/

namespace Panoptikon.Inferio

open Foundation

inductive PredictOutput where
  | json (values : List JsonValue)
  | binary (values : List (List UInt8))

def PredictOutput.len : PredictOutput → Nat
  | .json values => values.length
  | .binary values => values.length

def PredictOutput.isEmpty (outputs : PredictOutput) : Bool := outputs.len = 0

structure PredictSlotError where
  /-- The position of the input. -/
  index : Nat
  errorClass : SlotErrorClass
  message : String

structure PredictResponse where
  outputs : PredictOutput
  errors : List PredictSlotError

def PredictResponse.plain (outputs : PredictOutput) : PredictResponse := ⟨outputs, []⟩

/-- One output of a response. -/
inductive Payload where
  | json (value : JsonValue)
  | binary (bytes : List UInt8)

def PredictOutput.payloads : PredictOutput → List Payload
  | .json values => values.map .json
  | .binary values => values.map .binary

def SlotError.at (failure : Nat × SlotError) : PredictSlotError :=
  ⟨failure.1, failure.2.errorClass, failure.2.message⟩

/-- `serde_json` and `base64`. -/
structure JsonCodec where
  toVec : JsonValue → List UInt8
  fromSlice : List UInt8 → Option JsonValue
  encodeBase64 : List UInt8 → String
  decodeBase64 : String → Option (List UInt8)

/-- `Value::get` of a key, which only an object has. -/
def JsonValue.get : JsonValue → String → Option JsonValue
  | .object entries, key => (entries.find? fun entry => entry.1 = key).map Prod.snd
  | _, _ => none

def JsonValue.asStr : JsonValue → Option String
  | .string text => some text
  | _ => none

def JsonValue.asArray : JsonValue → Option (List JsonValue)
  | .array items => some items
  | _ => none

def SlotErrorClass.asStr : SlotErrorClass → String
  | .input => "input"
  | .transient => "transient"

def SlotError.toJson (error : SlotError) : JsonValue :=
  .object [(errorSlotKey,
    .object [("class", .string error.errorClass.asStr), ("message", .string error.message)])]

def slotErrorFromJson (value : JsonValue) : Option (Except SlotFault SlotError) :=
  match value.get errorSlotKey with
  | none => none
  | some (.object body) =>
      some (slotErrorFromParts ((JsonValue.get (.object body) "class").bind JsonValue.asStr)
        ((JsonValue.get (.object body) "message").bind JsonValue.asStr))
  | some _ => some (.error .notAMap)

def boundary : Text := "multipart-boundary".toList

def marker (boundary : Text) : List UInt8 := Text.utf8 ("--".toList ++ boundary)

def lineEnd : List UInt8 := [13, 10]

/-- What stands between the boundary of a part and its bytes. -/
def partHead (index : Nat) : List UInt8 :=
  Text.utf8 ("\r\nContent-Type: application/octet-stream\r\n".toList ++
    "Content-Disposition: attachment; filename=\"output".toList ++ Nat.toDigits 10 index ++
    ".bin\"\r\n\r\n".toList)

def encodeParts : Nat → List (List UInt8) → List UInt8
  | _, [] => []
  | index, bytes :: rest =>
      marker boundary ++ partHead index ++ bytes ++ lineEnd ++ encodeParts (index + 1) rest

def WorkerOutput.bytes? : WorkerOutput → Option (List UInt8)
  | .bytes content => some content
  | _ => none

def WorkerOutput.isError : WorkerOutput → Bool
  | .error _ => true
  | _ => false

def encodeOutput (codec : JsonCodec) : WorkerOutput → JsonValue
  | .json value => value
  | .bytes bytes =>
      .object [("__type__", .string "base64"), ("content", .string (codec.encodeBase64 bytes))]
  | .error error => error.toJson

/-- The document of the JSON encoding. -/
def envelope (codec : JsonCodec) (outputs : List WorkerOutput) : JsonValue :=
  .object [("outputs", .array (outputs.map (encodeOutput codec)))]

def isBytes (output : WorkerOutput) : Bool := output.bytes?.isSome

/-- The content type and the body. -/
def encodeOutputResponse (codec : JsonCodec) (outputs : List WorkerOutput) : Text × List UInt8 :=
  let hasErrorSlot := outputs.any WorkerOutput.isError
  match hasErrorSlot, outputs with
  | false, [.bytes bytes] => ("application/octet-stream".toList, bytes)
  | _, _ =>
      if !hasErrorSlot && outputs.all isBytes then
        ("multipart/mixed; boundary=".toList ++ boundary,
          encodeParts 0 (outputs.filterMap WorkerOutput.bytes?) ++
            (marker boundary ++ Text.utf8 "--\r\n".toList))
      else ("application/json".toList, codec.toVec (envelope codec outputs))

inductive ResponseFault where
  | invalidJson
  | missingOutputs
  | malformedErrorSlot (index : Nat) (fault : SlotFault)
  | mixedOutputs (wrapped plain : Nat)
  | missingContent
  | invalidBase64
  | missingBoundary
  | unexpectedContentType

def isBase64Wrapper (value : JsonValue) : Bool :=
  (value.get "__type__").bind JsonValue.asStr = some "base64"

def decodeBase64Wrapper (codec : JsonCodec) (value : JsonValue) :
    Except ResponseFault (List UInt8) :=
  match (value.get "content").bind JsonValue.asStr with
  | none => .error .missingContent
  | some content =>
      match codec.decodeBase64 content with
      | none => .error .invalidBase64
      | some bytes => .ok bytes

/-- The errors with their positions, and what is no error. -/
def splitOutputs : Nat → List JsonValue →
    Except ResponseFault (List PredictSlotError × List JsonValue)
  | _, [] => .ok ([], [])
  | index, value :: rest =>
      match slotErrorFromJson value with
      | some (.error fault) => .error (.malformedErrorSlot index fault)
      | some (.ok error) => do
          let (errors, survivors) ← splitOutputs (index + 1) rest
          return (SlotError.at (index, error) :: errors, survivors)
      | none => do
          let (errors, survivors) ← splitOutputs (index + 1) rest
          return (errors, value :: survivors)

def parseJsonOutputs (codec : JsonCodec) (outputs : List JsonValue) :
    Except ResponseFault PredictResponse := do
  let (errors, survivors) ← splitOutputs 0 outputs
  if errors.isEmpty then return .plain (.json survivors)
  else
    let wrapped := (survivors.filter isBase64Wrapper).length
    if wrapped = 0 then return ⟨.json survivors, errors⟩
    else if wrapped ≠ survivors.length then
      .error (.mixedOutputs wrapped (survivors.length - wrapped))
    else
      let decoded ← survivors.mapM (decodeBase64Wrapper codec)
      return ⟨.binary decoded, errors⟩

def extractBoundary (contentType : Text) : Option Text :=
  (contentType.splitOn ';').findSome? fun segment =>
    (Text.stripPrefix "boundary=".toList (Text.trim segment)).map (Text.trimChar '"')

def splitHeaders (part : List UInt8) : Option (List UInt8 × List UInt8) :=
  (findSubslice [13, 10, 13, 10] part).map fun position =>
    (part.take position, part.drop (position + 4))

def filenameOf (line : Text) : Option Text :=
  if "content-disposition".toList.isPrefixOf (Text.toAsciiLowercase line) then
    (line.splitOn ';').findSome? fun segment =>
      (Text.stripPrefix "filename=".toList (Text.trim segment)).map (Text.trimChar '"')
  else none

def extractFilename (headers : List UInt8) : Option Text :=
  (Text.fromUtf8 headers).bind fun header =>
    (Text.lines header).findSome? fun line => filenameOf (Text.trim line)

def outputIndex (filename : Text) : Option Nat :=
  Text.parseUsize (Text.trimEndMatches ".bin".toList (Text.trimStartMatches "output".toList filename))

/-- On the bytes from the last. -/
def dropLineEnds : List UInt8 → List UInt8
  | 10 :: 13 :: rest => dropLineEnds rest
  | bytes => bytes

/-- `while data.ends_with(b"\r\n")`, two bytes go. -/
def stripLineEnds (data : List UInt8) : List UInt8 := (dropLineEnds data.reverse).reverse

def storeOutput (outputs : List (List UInt8)) (index : Option Nat) (data : List UInt8) :
    List (List UInt8) :=
  match index with
  | some index =>
      (if outputs.length ≤ index then
        outputs ++ List.replicate (index + 1 - outputs.length) []
      else outputs).set index data
  | none => outputs ++ [data]

def parsePart (outputs : List (List UInt8)) (part : List UInt8) : List (List UInt8) :=
  if part.isEmpty || part == Text.utf8 "--\r\n".toList || part == Text.utf8 "--".toList then outputs
  else
    match splitHeaders part with
    | none => outputs
    | some (headers, content) =>
        match extractFilename headers with
        | none => outputs
        | some filename => storeOutput outputs (outputIndex filename) (stripLineEnds content)

def parseMultipartOutputs (body : List UInt8) (boundary : Text) : List (List UInt8) :=
  (splitByMarker (marker boundary) body).foldl parsePart []

def parsePredictResponse (codec : JsonCodec) (contentType : Text) (body : List UInt8) :
    Except ResponseFault PredictResponse :=
  if Text.contains contentType "application/json".toList then
    match codec.fromSlice body with
    | none => .error .invalidJson
    | some value =>
        match (value.get "outputs").bind JsonValue.asArray with
        | none => .error .missingOutputs
        | some outputs => parseJsonOutputs codec outputs
  else if Text.contains contentType "multipart/mixed".toList then
    match extractBoundary contentType with
    | none => .error .missingBoundary
    | some boundary => .ok (.plain (.binary (parseMultipartOutputs body boundary)))
  else if Text.contains contentType "application/octet-stream".toList then
    .ok (.plain (.binary [body]))
  else .error .unexpectedContentType

end Panoptikon.Inferio
