import Panoptikon.Inferio.Worker

/-!
# Windows of requests

How `inferio/dispatch.rs` forms a window of requests and runs it on a worker:
merged, request by request after the merged batch failed, or in parts when one
request alone is too large. A window rests at each call of the worker.
-/

namespace Panoptikon.Inferio.Dispatch

open Foundation Panoptikon.Inferio

def frameInputBytesBudget : Nat := maxFrameBytes - 8 * 1024 * 1024

/-- The batch sizes of a model, and the worker as a function of its inputs. -/
structure DispatcherContext (Input Slot : Type) where
  registryDefaultBatch : Option Nat
  serverDefaultBatch : Nat
  estimateInputBytes : Input → Nat
  slotOf : Input → Slot

/-- A request is known by the channel its caller waits at. -/
structure DispatchRequest (Input : Type) where
  id : Nat
  inputs : List Input
  maxBatch : Option Nat
  payloadBytes : Nat

/-- What a caller receives. -/
inductive Reply (Slot : Type) where
  | outputs (slots : List Slot)
  /-- The worker's error for a call with nothing but this request's inputs. -/
  | workerError (why : String)
  /-- The error of the call in which the worker died. -/
  | fatal (why : String)
  /-- A copy of the message another request's call ended with. -/
  | failed (why : String)
  /-- The channel closed without a reply. -/
  | dropped

/-- What a call of the worker comes to. -/
inductive CallOutcome where
  | slots
  | workerError (why : String)
  | fatal (why : String)

/-- A call of the worker that came back. -/
structure Call (Input : Type) where
  members : List Nat
  inputs : List Input
  outcome : CallOutcome

inductive BatchOutcome where
  | continue
  | fatal (why : String)

def effectiveCap (explicitCaps : List (Option Nat)) (registryDefault : Option Nat)
    (serverDefault : Nat) : Nat :=
  let explicit := (explicitCaps.filterMap id).max?
  let cap := (explicit.or (registryDefault.filter (0 < ·))).getD serverDefault
  max cap 1

/-- The cap under which a request joins. A cap that is not positive is no opinion. -/
def admitCap (memberCap : Nat) : Option Nat → Nat
  | some requestCap => if 0 < requestCap then min memberCap requestCap else memberCap
  | none => memberCap

def windowTakeLoop (byteBudget : Nat) : List (Nat × Nat × Option Nat) →
    (taken units bytes memberCap : Nat) → Nat
  | [], taken, _, _, _ => taken
  | (count, size, explicit) :: rest, taken, units, bytes, memberCap =>
      let admitted := admitCap memberCap explicit
      if taken = 0 ∨ (units + count ≤ admitted ∧ bytes + size ≤ byteBudget) then
        windowTakeLoop byteBudget rest (taken + 1) (units + count) (bytes + size) admitted
      else taken

def windowTakeCount (requests : List (Nat × Nat × Option Nat)) (cap byteBudget : Nat) : Nat :=
  windowTakeLoop byteBudget requests 0 0 0 cap

section Parts

variable {Input Slot : Type}

def subBatchLoop (size : Input → Nat) (byteBudget : Nat) : List Input → (bytes taken : Nat) → Nat
  | [], _, taken => taken
  | input :: rest, bytes, taken =>
      if 0 < taken ∧ byteBudget < bytes + size input then taken
      else subBatchLoop size byteBudget rest (bytes + size input) (taken + 1)

def subBatchLen (size : Input → Nat) (inputs : List Input) (cap byteBudget : Nat) : Nat :=
  max (subBatchLoop size byteBudget (inputs.take (max cap 1)) 0 0) 1

/-- Cut at the counts; a count behind the end panics. -/
def splitWindowOutputs : List Slot → List Nat → Option (List (List Slot))
  | _, [] => some []
  | outputs, count :: counts =>
      if count ≤ outputs.length then do
        let slices ← splitWindowOutputs (outputs.drop count) counts
        return outputs.take count :: slices
      else none

end Parts

/-- The call of the worker a window rests at. -/
inductive Work (Input Slot : Type) where
  | merged (window : List (DispatchRequest Input))
  | fallback (request : DispatchRequest Input) (inputs : List Input)
      (remaining : List (DispatchRequest Input × Nat)) (combined : List Input)
  | single (request : DispatchRequest Input)
  | split (request : DispatchRequest Input) (outputs : List Slot) (chunk rest : List Input)

inductive Status (Input Slot : Type) where
  | calling (work : Work Input Slot)
  | finished (outcome : BatchOutcome)
  | panicked

/-- How far a window gets until its next call, and the replies it gives. -/
structure Progress (Input Slot : Type) where
  status : Status Input Slot
  replies : List (Nat × Reply Slot)

variable {Input Slot : Type}

def failRequests (requests : List (DispatchRequest Input)) (why : String) :
    List (Nat × Reply Slot) :=
  requests.map fun request => (request.id, .failed why)

def dropRequests (requests : List (DispatchRequest Input)) : List (Nat × Reply Slot) :=
  requests.map fun request => (request.id, .dropped)

namespace Work

/-- The inputs of the call. -/
def inputs : Work Input Slot → List Input
  | .merged window => window.flatMap DispatchRequest.inputs
  | .fallback _ inputs _ _ => inputs
  | .single request => request.inputs
  | .split _ _ chunk _ => chunk

/-- The requests whose inputs the call has. -/
def members : Work Input Slot → List Nat
  | .merged window => window.map DispatchRequest.id
  | .fallback request _ _ _ => [request.id]
  | .single request => [request.id]
  | .split request _ _ _ => [request.id]

/-- The requests that have no reply. -/
def pending : Work Input Slot → List (DispatchRequest Input)
  | .merged window => window
  | .fallback request _ remaining _ => request :: remaining.map Prod.fst
  | .single request => [request]
  | .split request _ _ _ => [request]

end Work

def Status.pending : Status Input Slot → List (DispatchRequest Input)
  | .calling work => work.pending
  | .finished _ => []
  | .panicked => []

namespace DispatcherContext

variable (ctx : DispatcherContext Input Slot)

/-- The next call of a request that goes in parts. -/
def nextPart (cap : Nat) (request : DispatchRequest Input) (outputs : List Slot)
    (rest : List Input) : Progress Input Slot :=
  if rest = [] then ⟨.finished .continue, [(request.id, .outputs outputs)]⟩
  else
    let take := subBatchLen ctx.estimateInputBytes rest cap frameInputBytesBudget
    ⟨.calling (.split request outputs (rest.take take) (rest.drop take)), []⟩

def runSingle (cap : Nat) (request : DispatchRequest Input) : Progress Input Slot :=
  if request.inputs.length ≤ cap ∧ request.payloadBytes ≤ frameInputBytesBudget then
    ⟨.calling (.single request), []⟩
  else ctx.nextPart cap request [] request.inputs

def runBatch (cap : Nat) : List (DispatchRequest Input) → Progress Input Slot
  | [request] => ctx.runSingle cap request
  | window => ⟨.calling (.merged window), []⟩

/-- The next request after a merged batch that failed. -/
def nextFallback : List (DispatchRequest Input × Nat) → List Input → Progress Input Slot
  | [], _ => ⟨.finished .continue, []⟩
  | (request, count) :: remaining, combined =>
      if count ≤ combined.length then
        ⟨.calling (.fallback request (combined.take count) remaining (combined.drop count)), []⟩
      else ⟨.panicked, []⟩

def resumeMerged (window : List (DispatchRequest Input)) : CallOutcome → Progress Input Slot
  | .slots =>
      let outputs := (window.flatMap DispatchRequest.inputs).map ctx.slotOf
      match splitWindowOutputs outputs (window.map fun request => request.inputs.length) with
      | some slices =>
          ⟨.finished .continue, (window.zip slices).map fun (request, slice) =>
            (request.id, .outputs slice)⟩
      | none => ⟨.panicked, []⟩
  | .workerError _ =>
      nextFallback (window.map fun request => (request, request.inputs.length))
        (window.flatMap DispatchRequest.inputs)
  | .fatal why => ⟨.finished (.fatal why), failRequests window why⟩

def resumeFallback (request : DispatchRequest Input) (inputs : List Input)
    (remaining : List (DispatchRequest Input × Nat)) (combined : List Input) :
    CallOutcome → Progress Input Slot
  | .slots =>
      let next : Progress Input Slot := nextFallback remaining combined
      { next with replies := (request.id, .outputs (inputs.map ctx.slotOf)) :: next.replies }
  | .workerError why =>
      let next : Progress Input Slot := nextFallback remaining combined
      { next with replies := (request.id, .workerError why) :: next.replies }
  | .fatal why =>
      ⟨.finished (.fatal why),
        (request.id, .fatal why) :: failRequests (remaining.map Prod.fst) why⟩

def resumeSingle (request : DispatchRequest Input) : CallOutcome → Progress Input Slot
  | .slots => ⟨.finished .continue, [(request.id, .outputs (request.inputs.map ctx.slotOf))]⟩
  | .workerError why => ⟨.finished .continue, [(request.id, .workerError why)]⟩
  | .fatal why => ⟨.finished (.fatal why), [(request.id, .fatal why)]⟩

def resumeSplit (cap : Nat) (request : DispatchRequest Input) (outputs : List Slot)
    (chunk rest : List Input) : CallOutcome → Progress Input Slot
  | .slots => ctx.nextPart cap request (outputs ++ chunk.map ctx.slotOf) rest
  | .workerError why => ⟨.finished .continue, [(request.id, .workerError why)]⟩
  | .fatal why => ⟨.finished (.fatal why), [(request.id, .fatal why)]⟩

def resume (cap : Nat) (work : Work Input Slot) (outcome : CallOutcome) : Progress Input Slot :=
  match work with
  | .merged window => ctx.resumeMerged window outcome
  | .fallback request inputs remaining combined =>
      ctx.resumeFallback request inputs remaining combined outcome
  | .single request => ctx.resumeSingle request outcome
  | .split request outputs chunk rest => ctx.resumeSplit cap request outputs chunk rest outcome

end DispatcherContext

end Panoptikon.Inferio.Dispatch
