import Panoptikon.Inferio.Response

/-!
# Inference over one item

`run_chunked_inference`, `isolate_inputs` and `classify_slot_errors` of
`jobs/extraction.rs`, and what `process_item` makes of them. A predict call is a
parameter that is given its number among the calls of the item, so that it may
answer differently each time.
-/

namespace Panoptikon.Extraction

open Foundation
open Panoptikon.Inferio (PredictOutput PredictResponse PredictSlotError SlotErrorClass)

inductive Failure where
  | protocolViolation
  | predict
  /-- `input {index} failed on its own too`. -/
  | alone (index : Nat) (cause : Failure)
  /-- `batch failed and isolation did not recover it`. -/
  | notRecovered (batch cause : Failure)
  /-- `inference chunks returned mixed output types`. -/
  | mixedOutputTypes
  /-- `no inference outputs produced`. -/
  | noOutputs
deriving DecidableEq

def isProtocolViolation (failure : Failure) : Bool := failure = .protocolViolation

/-- The number of the call, the batch cap it advertises, and its inputs. -/
abbrev PredictUnits (Input : Type) := Nat → Nat → List Input → Except Failure PredictResponse

def isolationMaxBatch : Nat := 1

def chunkCap (chunkSize : Nat) : Nat := min chunkSize (2 ^ 32 - 1)

def mergeOutputs : PredictOutput → PredictOutput → Except Failure PredictOutput
  | .json first, .json second => .ok (.json (first ++ second))
  | .binary first, .binary second => .ok (.binary (first ++ second))
  | _, _ => .error .mixedOutputTypes

/-- What has been merged, after the outputs of the next response. -/
def mergeNext (merged : Option PredictOutput) (outputs : PredictOutput) :
    Except Failure (Option PredictOutput) :=
  if outputs.isEmpty then .ok merged
  else
    match merged with
    | none => .ok (some outputs)
    | some previous => (mergeOutputs previous outputs).map some

def shiftIndex (base : Nat) (error : PredictSlotError) : PredictSlotError :=
  { error with index := error.index + base }

section

variable {Input : Type} (predict : PredictUnits Input)

/-- The loop of `isolate_inputs` from an input on, and the number of the next call. -/
def isolateFrom : Nat → Option PredictOutput → List PredictSlotError → Nat → List Input →
    Except Failure PredictResponse × Nat
  | _, merged, errors, call, [] => (.ok ⟨merged.getD (.json []), errors⟩, call)
  | index, merged, errors, call, input :: rest =>
      match predict call isolationMaxBatch [input] with
      | .error failure => (.error (.alone index failure), call + 1)
      | .ok response =>
          match mergeNext merged response.outputs with
          | .error failure => (.error failure, call + 1)
          | .ok merged =>
              isolateFrom (index + 1) merged (errors ++ response.errors.map (shiftIndex index))
                (call + 1) rest

def isolateInputs (call : Nat) (inputs : List Input) : Except Failure PredictResponse × Nat :=
  isolateFrom predict 0 none [] call inputs

/-- The response to one chunk, from the chunk itself or input by input. -/
def predictChunk (cap call : Nat) (chunk : List Input) : Except Failure PredictResponse × Nat :=
  match predict call cap chunk with
  | .ok response => (.ok response, call + 1)
  | .error failure =>
      if isProtocolViolation failure then (.error failure, call + 1)
      else if 1 < chunk.length then
        match isolateInputs predict (call + 1) chunk with
        | (.ok response, next) => (.ok response, next)
        | (.error cause, next) => (.error (.notRecovered failure cause), next)
      else (.error failure, call + 1)

/-- The loop over the chunks, and the number of the next call. -/
def runChunks (cap : Nat) : Nat → Option PredictOutput → List PredictSlotError → Nat →
    List (List Input) → Except Failure (Option PredictOutput × List PredictSlotError) × Nat
  | _, merged, slotErrors, call, [] => (.ok (merged, slotErrors), call)
  | base, merged, slotErrors, call, chunk :: rest =>
      match predictChunk predict cap call chunk with
      | (.error failure, next) => (.error failure, next)
      | (.ok response, next) =>
          match mergeNext merged response.outputs with
          | .error failure => (.error failure, next)
          | .ok merged =>
              runChunks cap (base + chunk.length) merged
                (slotErrors ++ response.errors.map (shiftIndex base)) next rest

end

/-- As many chunks as the fuel allows. -/
def chunksWithin {Input : Type} (size : Nat) : Nat → List Input → List (List Input)
  | 0, _ => []
  | _ + 1, [] => []
  | fuel + 1, inputs => inputs.take size :: chunksWithin size fuel (inputs.drop size)

/-- `slice::chunks` of a size that is not zero. -/
def chunks {Input : Type} (size : Nat) (inputs : List Input) : List (List Input) :=
  chunksWithin size inputs.length inputs

structure ItemInference where
  outputs : PredictOutput
  slotErrors : List PredictSlotError

def runChunkedInference {Input : Type} (predict : PredictUnits Input) (unitCapacity : Nat)
    (inputs : List Input) : Except Failure ItemInference :=
  let chunkSize := max unitCapacity 1
  match (runChunks predict (chunkCap chunkSize) 0 none [] 0 (chunks chunkSize inputs)).1 with
  | .error failure => .error failure
  | .ok (some outputs, slotErrors) => .ok ⟨outputs, slotErrors⟩
  | .ok (none, slotErrors) =>
      if slotErrors.isEmpty then .error .noOutputs else .ok ⟨.json [], slotErrors⟩

inductive SlotVerdict where
  | proceed
  | transient
  | inputMedia

def classifySlotErrors (totalInputs : Nat) (errors : List PredictSlotError) (textEntity : Bool) :
    SlotVerdict :=
  if errors.isEmpty then .proceed
  else if !errors.all fun error => error.errorClass = .input then .transient
  else if errors.length < totalInputs then .proceed
  else if textEntity then .transient
  else .inputMedia

def survivingInputIndices (totalInputs : Nat) (errors : List PredictSlotError) : Option (List Nat) :=
  if errors.isEmpty then none
  else some ((List.range totalInputs).filter fun index => index ∉ errors.map (·.index))

/-- The input a surviving output came from; none when there are more outputs than survivors. -/
def inputIndex (survivors : Option (List Nat)) (position : Nat) : Option Nat :=
  match survivors with
  | some map => map[position]?
  | none => some position

inductive ItemOutcome where
  | processed
  | failed
  | inputFailed

/-- What the rest of the system answers while an item is processed. -/
structure Surroundings where
  writePlaceholder : Bool
  handleOutputs : PredictOutput → Option (List Nat) → Bool
  /-- Whether a ledger row could be written. -/
  recordFailure : Bool

/-- Prepared inputs, or whether the failure to prepare them is of a class the ledger stores. -/
def processItem {Input : Type} (predict : PredictUnits Input) (unitCapacity : Nat) (textEntity : Bool)
    (surroundings : Surroundings) (prepared : Except Bool (List Input)) : ItemOutcome :=
  let record := if surroundings.recordFailure then ItemOutcome.inputFailed else .failed
  match prepared with
  | .error persisted => if persisted then record else .failed
  | .ok [] => if surroundings.writePlaceholder then .processed else .failed
  | .ok inputs =>
      match runChunkedInference predict unitCapacity inputs with
      | .error _ => .failed
      | .ok inference =>
          match classifySlotErrors inputs.length inference.slotErrors textEntity with
          | .transient => .failed
          | .inputMedia => record
          | .proceed =>
              if surroundings.handleOutputs inference.outputs
                  (survivingInputIndices inputs.length inference.slotErrors) then .processed
              else .failed

end Panoptikon.Extraction
