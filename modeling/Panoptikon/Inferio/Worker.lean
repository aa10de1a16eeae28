import Panoptikon.Embedding.Encoding
import Panoptikon.Foundation.Framing
import Panoptikon.Foundation.Machine
import Panoptikon.Inferio.Wire

/-!
# The worker's supervisor

`Worker` of `inferio/worker.rs`: a child process behind two pipes, one request at
a time. The future of a request rests at each await of its cycle, where it may be
dropped, and the child may write any bytes at any moment. A dropped future leaves
what it wrote and what it read where they are.
-/

namespace Panoptikon.Inferio

open Foundation Panoptikon.Embedding

def protocolVersion : UInt64 := 2

def maxFrameBytes : Nat := 0x80000000

inductive Request where
  | handshake (implClass : String) (implDirs : List String)
  | configure (inferenceId : String) (configKwargs : JsonValue)
  | prewarm
  | load
  | predict (inputs : List WorkerInput)
  | ping
  /-- The request of `shutdown`, which consumes the worker. -/
  | unload

namespace Request

def requestType : Request → String
  | .handshake _ _ => "handshake"
  | .configure _ _ => "configure"
  | .prewarm => "prewarm"
  | .load => "load"
  | .predict _ => "predict"
  | .ping => "ping"
  | .unload => "unload"

def fields : Request → List (Value × Value)
  | .handshake implClass implDirs =>
      [(.string "protocol_version", .integer (.posInt protocolVersion)),
        (.string "impl_class", .string implClass),
        (.string "impl_dirs", .array (implDirs.map Value.string))]
  | .configure inferenceId configKwargs =>
      [(.string "inference_id", .string inferenceId), (.string "config", jsonToRmpv configKwargs)]
  | .predict inputs => [(.string "inputs", .array (inputs.map WorkerInput.entry))]
  | .prewarm | .load | .ping | .unload => []

def frame (request : Request) (id : UInt64) : Value :=
  .map ([(.string "type", .string request.requestType), (.string "id", .integer (.posInt id))] ++
    request.fields)

/-- A prediction takes as long as it takes. -/
def hasDeadline : Request → Bool
  | .predict _ => false
  | _ => true

def IsUnload : Request → Prop
  | .unload => True
  | _ => False

instance (request : Request) : Decidable request.IsUnload := by
  cases request <;> unfold IsUnload <;> infer_instance

end Request

theorem to_le_bytes_le_bytes (bytes : List UInt8) : toLeBytes bytes.length (leBytes bytes) = bytes := by
  induction bytes with
  | nil => rfl
  | cons first rest ih =>
    have bound := first.toNat_lt
    have unfolded : leBytes (first :: rest) = first.toNat + 256 * leBytes rest := rfl
    rw [List.length_cons, toLeBytes, unfolded]
    have low : UInt8.ofNat (first.toNat + 256 * leBytes rest) = first := by
      apply UInt8.toNat_inj.mp
      rw [UInt8.toNat_ofNat']
      omega
    have high : (first.toNat + 256 * leBytes rest) / 256 = leBytes rest := by omega
    rw [high, ih]
    exact congrArg (· :: rest) low

/-- Four bytes, the least first. -/
def lengthPrefix : LengthPrefix where
  width := 4
  limit := 256 ^ 4
  write := toLeBytes 4
  read := leBytes
  width_write := to_le_bytes_length 4
  read_write := fun _ fits => le_bytes_to_le_bytes fits
  write_read := by
    intro bytes length
    rw [← length]
    exact to_le_bytes_le_bytes bytes

inductive EncodeFault where
  | encode (why : String)
  | tooLong (length : Nat)

def encodeFrame (codec : Codec) (value : Value) : Except EncodeFault (List UInt8) :=
  match codec.writeValue value with
  | .error why => .error (.encode why)
  | .ok payload =>
      if payload.length > maxFrameBytes then .error (.tooLong payload.length) else .ok payload

/-- Why the bytes of a cycle came to nothing. -/
inductive CycleFault where
  /-- A pipe failed, or the child closed it. -/
  | pipe
  | timeout
  | tooLong (length : Nat)
  | invalid (why : String)

inductive Fatality where
  | droppedRequest
  | requestFailed (fault : CycleFault)
  | notAMap
  | idMismatch (found : Option UInt64) (id : UInt64)
  | unexpectedType (found : Option String)
  | version (found : Option UInt64)
  | noOutputs
  | outputCount (outputs inputs : Nat)
  | malformedSlot (index : Nat) (fault : SlotFault)

/-- A failure of one request that leaves the worker serviceable. -/
inductive WorkerError where
  | reported (message traceback : String)
  | notJson (index : Nat) (fault : JsonFault)

inductive Answer where
  | done
  | outputs (outputs : List WorkerOutput)

inductive Reply where
  | ok (id : UInt64) (answer : Answer)
  | workerError (id : UInt64) (error : WorkerError)
  /-- Refused before a byte was sent. -/
  | refused (fault : EncodeFault)
  | dead
  | fatal (why : Fatality)
  /-- A shutdown that was not graceful. -/
  | killed

inductive Verdict where
  | reply (reply : Reply)
  | fatal (why : Fatality)

/-- Where the outputs of a prediction stop being read. -/
inductive OutputFault where
  | malformedSlot (index : Nat) (fault : SlotFault)
  | notJson (index : Nat) (fault : JsonFault)

def convertOutput (codec : Codec) (index : Nat) (output : Value) :
    Except OutputFault WorkerOutput :=
  match errorSlotFromRmpv output with
  | some (.ok error) => .ok (.error error)
  | some (.error fault) => .error (.malformedSlot index fault)
  | none =>
      match output with
      | .binary bytes => .ok (.bytes bytes)
      | other =>
          match rmpvToJson codec other with
          | .ok value => .ok (.json value)
          | .error fault => .error (.notJson index fault)

def convertOutputs (codec : Codec) : Nat → List Value → Except OutputFault (List WorkerOutput)
  | _, [] => .ok []
  | index, output :: rest => do
      let first ← convertOutput codec index output
      let others ← convertOutputs codec (index + 1) rest
      return first :: others

/-- The rest of `predict`, behind its round trip. -/
def deliverOutputs (codec : Codec) (id : UInt64) (inputs : List WorkerInput)
    (payload : List (Value × Value)) : Verdict :=
  match takeField payload "outputs" with
  | some (.array outputs) =>
      if outputs.length ≠ inputs.length then .fatal (.outputCount outputs.length inputs.length)
      else
        match convertOutputs codec 0 outputs with
        | .ok converted => .reply (.ok id (.outputs converted))
        | .error (.malformedSlot index fault) => .fatal (.malformedSlot index fault)
        | .error (.notJson index fault) => .reply (.workerError id (.notJson index fault))
  | _ => .fatal .noOutputs

/-- What the caller of a round trip makes of its payload. -/
def Request.deliver (codec : Codec) (request : Request) (id : UInt64)
    (payload : List (Value × Value)) : Verdict :=
  match request with
  | .handshake _ _ =>
      let version := (mapGet payload "protocol_version").bind Value.asU64
      if version ≠ some protocolVersion then .fatal (.version version)
      else .reply (.ok id .done)
  | .predict inputs => deliverOutputs codec id inputs payload
  | _ => .reply (.ok id .done)

def responseId (entries : List (Value × Value)) : Option UInt64 :=
  (mapGet entries "id").bind Value.asU64

def responseType (entries : List (Value × Value)) : Option String :=
  (mapGet entries "type").bind Value.asStr

def errorReported (entries : List (Value × Value)) : WorkerError :=
  .reported
    (((mapGet entries "message").bind Value.asStr).getD
      "<worker sent an error frame without a message>")
    (((mapGet entries "traceback").bind Value.asStr).getD "")

/-- Whether a frame completes the exchange, and what then comes of it. -/
inductive Judgement where
  | completes (verdict : Verdict)
  | breaks (why : Fatality)

/-- A frame that carries the request's id. Only a plain request takes an error. -/
def Request.judge (codec : Codec) (request : Request) (id : UInt64)
    (entries : List (Value × Value)) : Judgement :=
  if responseType entries = some "ok" then .completes (request.deliver codec id entries)
  else if responseType entries = some "error" ∧ ¬request.IsUnload then
    .completes (.reply (.workerError id (errorReported entries)))
  else .breaks (.unexpectedType (responseType entries))

structure Worker where
  nextId : UInt64
  inFlight : Bool
  dead : Bool

/-- The await a cycle rests at. -/
inductive Stage where
  | writing (left : List UInt8)
  | flushing
  | readingHeader (got : List UInt8)
  | readingPayload (length : Nat) (got : List UInt8)

inductive Future where
  | cycle (id : UInt64) (request : Request) (payload : List UInt8) (stage : Stage)
  /-- Inside `fatal`, which waits for the killed child. -/
  | reaping (request : Request) (why : Fatality)
  /-- Inside `shutdown`, which waits for the child to exit by itself. -/
  | exiting (id : UInt64)
  /-- Inside `kill`, at the end of a `shutdown`. -/
  | killing

structure Exchange where
  id : UInt64
  request : Request
  payload : List UInt8
  response : List UInt8

/-- What happened to a worker, as seen by its callers. -/
inductive Entry where
  | accepted (id : UInt64) (request : Request)
  | returned (request : Request) (reply : Reply)
  /-- A future was dropped with its request in flight. -/
  | dropped (request : Request)
  | poisoned (why : Fatality)

structure Session where
  worker : Worker
  future : Option Future
  consumed : Bool
  /-- All bytes written to the child's stdin. -/
  written : List UInt8
  /-- The bytes in the pipe behind the child's stdout. -/
  unread : List UInt8
  /-- All bytes taken from that pipe. -/
  taken : List UInt8
  exchanges : List Exchange
  log : List Entry

inductive Event where
  | request (request : Request)
  /-- The pipe takes some bytes. -/
  | write (count : Nat)
  | flush
  /-- The child writes. -/
  | arrive (bytes : List UInt8)
  | read (count : Nat)
  | fails
  | timeout
  | reaped
  | exited
  | drop
  /-- The worker is killed, or dropped by its owner. -/
  | kill

namespace Session

variable (codec : Codec) (session : Session)

def note (entry : Entry) : Session := { session with log := session.log ++ [entry] }

def await (future : Future) : Session := { session with future := some future }

def finish (request : Request) (reply : Reply) : Session :=
  { session with future := none }.note (.returned request reply)

def fatal (request : Request) (why : Fatality) : Session :=
  ({ session with worker := { session.worker with dead := true, inFlight := false } }.await
    (.reaping request why)).note (.poisoned why)

/-- The cycle of a request fails; one of `shutdown` ends in a kill. -/
def abandon (request : Request) (why : Fatality) : Session :=
  if request.IsUnload then session.await .killing else session.fatal request why

def takeId : Session :=
  { session with worker := { session.worker with nextId := session.worker.nextId + 1 } }

def send (id : UInt64) (request : Request) (payload : List UInt8) : Session :=
  (session.await (.cycle id request payload (.writing (lengthPrefix.frame payload)))).note
    (.accepted id request)

def setInFlight (inFlight : Bool) : Session :=
  { session with worker := { session.worker with inFlight } }

def roundtrip (request : Request) : Session :=
  if session.worker.dead then session.note (.returned request .dead)
  else if session.worker.inFlight then session.fatal request .droppedRequest
  else
    match encodeFrame codec (request.frame session.worker.nextId) with
    | .error fault => session.takeId.note (.returned request (.refused fault))
    | .ok payload =>
        (session.takeId.setInFlight true).send session.worker.nextId request payload

def consume : Session := { session with consumed := true }

def shutdown : Session :=
  if session.worker.dead then session.consume.await .killing
  else if session.worker.inFlight then session.consume.await .killing
  else
    match encodeFrame codec (Request.unload.frame session.worker.nextId) with
    | .error _ => session.takeId.consume.await .killing
    | .ok payload => session.takeId.consume.send session.worker.nextId .unload payload

def begin (request : Request) : Session :=
  if session.consumed then session
  else if request.IsUnload then session.shutdown codec
  else session.roundtrip codec request

/-- The frame with the request's id has been read. -/
def settle (exchange : Exchange) : Session :=
  { session with
    worker := { session.worker with inFlight := false }
    future := none
    exchanges := session.exchanges ++ [exchange] }

def conclude (request : Request) (id : UInt64) : Verdict → Session
  | .fatal why => session.abandon request why
  | .reply reply =>
      if request.IsUnload then session.await (.exiting id) else session.finish request reply

/-- A whole response has been read. -/
def complete (id : UInt64) (request : Request) (payload response : List UInt8) : Session :=
  match codec.readValue response with
  | .error why => session.abandon request (.requestFailed (.invalid why))
  | .ok (.map entries) =>
      if responseId entries ≠ some id then
        session.abandon request (.idMismatch (responseId entries) id)
      else
        match request.judge codec id entries with
        | .breaks why => session.abandon request why
        | .completes verdict =>
            (session.settle ⟨id, request, payload, response⟩).conclude request id verdict
  | .ok _ => session.abandon request .notAMap

def writeSome (id : UInt64) (request : Request) (payload left : List UInt8) (count : Nat) :
    Session :=
  let stage := if left.drop count = [] then Stage.flushing else .writing (left.drop count)
  { session with written := session.written ++ left.take count }.await
    (.cycle id request payload stage)

def take (count : Nat) : Session :=
  { session with
    unread := session.unread.drop count
    taken := session.taken ++ session.unread.take count }

def payloadRead (id : UInt64) (request : Request) (payload : List UInt8) (length : Nat)
    (got : List UInt8) : Session :=
  if got.length = length then session.complete codec id request payload got
  else session.await (.cycle id request payload (.readingPayload length got))

def headerRead (id : UInt64) (request : Request) (payload got : List UInt8) : Session :=
  if got.length = lengthPrefix.width then
    if lengthPrefix.read got > maxFrameBytes then
      session.abandon request (.requestFailed (.tooLong (lengthPrefix.read got)))
    else session.payloadRead codec id request payload (lengthPrefix.read got) []
  else session.await (.cycle id request payload (.readingHeader got))

/-- A read gives at most the bytes that are there and at most those asked for. -/
def readSome (id : UInt64) (request : Request) (payload : List UInt8) (count : Nat) :
    Stage → Session
  | .readingHeader got =>
      let count := min count (lengthPrefix.width - got.length)
      (session.take count).headerRead codec id request payload (got ++ session.unread.take count)
  | .readingPayload length got =>
      let count := min count (length - got.length)
      (session.take count).payloadRead codec id request payload length
        (got ++ session.unread.take count)
  | _ => session

def dropFuture : Future → Session
  | .cycle _ request _ _ => { session with future := none }.note (.dropped request)
  | _ => { session with future := none }

/-- The events of a session that has no future, and of one that has. -/
def stepIdle : Event → Session
  | .request request => session.begin codec request
  | .kill => session.consume
  | _ => session

def stepCycle (id : UInt64) (request : Request) (payload : List UInt8) (stage : Stage) :
    Event → Session
  | .write count =>
      match stage with
      | .writing left => session.writeSome id request payload left count
      | _ => session
  | .flush =>
      match stage with
      | .flushing => session.await (.cycle id request payload (.readingHeader []))
      | _ => session
  | .read count => session.readSome codec id request payload count stage
  | .fails => session.abandon request (.requestFailed .pipe)
  | .timeout =>
      if request.hasDeadline then session.abandon request (.requestFailed .timeout) else session
  | .drop => session.dropFuture (.cycle id request payload stage)
  | _ => session

def stepFuture : Future → Event → Session
  | .cycle id request payload stage, event =>
      session.stepCycle codec id request payload stage event
  | .reaping request why, .reaped => session.finish request (.fatal why)
  | .exiting id, .exited => session.finish .unload (.ok id .done)
  | .exiting _, .fails => session.await .killing
  | .exiting _, .timeout => session.await .killing
  | .killing, .reaped => session.finish .unload .killed
  | future, .drop => session.dropFuture future
  | _, _ => session

def step (event : Event) : Session :=
  match event with
  | .arrive bytes => { session with unread := session.unread ++ bytes }
  | event =>
      match session.future with
      | none => session.stepIdle codec event
      | some future => session.stepFuture codec future event

end Session

/-- A child just spawned. -/
def workerMachine (codec : Codec) : Machine Session Event where
  init := ⟨⟨1, false, false⟩, none, false, [], [], [], [], []⟩
  step := Session.step codec

end Panoptikon.Inferio
