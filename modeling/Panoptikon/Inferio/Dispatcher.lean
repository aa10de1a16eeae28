import Panoptikon.Inferio.Windows

/-!
# The dispatcher of a model

`run_dispatcher` of `inferio/dispatch.rs`: one task that owns the queue and the
free replicas, and one task for each window in flight. The windows run at their
own pace; the dispatcher wakes for a message or for a window that is done, and
rests again once no replica is free or nothing is queued.
-/

namespace Panoptikon.Inferio.Dispatch

open Foundation Panoptikon.Inferio

inductive DispatchMsg (Input : Type) where
  | predict (request : DispatchRequest Input)
  | shutdown

inductive Phase where
  | serving
  /-- A replica died, and its process is being reaped. -/
  | dying (why : String)
  /-- Unloading, with windows still in flight. -/
  | draining
  /-- The windows in flight are aborted. -/
  | aborting

structure InFlight (Input Slot : Type) where
  replica : Nat
  cap : Nat
  status : Status Input Slot

structure Dispatcher (Input Slot : Type) where
  mailbox : List (DispatchMsg Input)
  /-- Whether the mailbox takes no more messages. -/
  closed : Bool
  /-- Whether every sender is gone. -/
  hungUp : Bool
  queue : List (DispatchRequest Input)
  /-- The idle replicas, the last one to become idle first. -/
  free : List Nat
  inFlight : List (InFlight Input Slot)
  phase : Phase
  sent : List (DispatchRequest Input)
  windows : List (List (DispatchRequest Input))
  calls : List (Call Input)
  replies : List (Nat × Reply Slot)

inductive DispatchEvent (Input : Type) where
  /-- A caller asks for a prediction. -/
  | send (inputs : List Input) (maxBatch : Option Nat) (payloadBytes : Nat)
  | sendShutdown
  | hangUp
  /-- The dispatcher wakes for a message. -/
  | receive
  /-- The dispatcher wakes for a window that is done. -/
  | join (index : Nat)
  /-- The call a window rests at comes back. -/
  | returns (index : Nat) (outcome : CallOutcome)
  | reaped
  | graceExpires
  /-- An aborted window ends where it rests. -/
  | aborted (index : Nat)

variable {Input Slot : Type}

def requestsOf (mailbox : List (DispatchMsg Input)) : List (DispatchRequest Input) :=
  mailbox.filterMap fun message =>
    match message with
    | .predict request => some request
    | .shutdown => none

namespace Dispatcher

variable (ctx : DispatcherContext Input Slot) (state : Dispatcher Input Slot)

/-- One window for one free replica. -/
def startWindow (replica : Nat) : Dispatcher Input Slot :=
  let cap := effectiveCap (state.queue.map DispatchRequest.maxBatch) ctx.registryDefaultBatch
    ctx.serverDefaultBatch
  let unitCounts := state.queue.map fun request =>
    (request.inputs.length, request.payloadBytes, request.maxBatch)
  let take := windowTakeCount unitCounts cap frameInputBytesBudget
  let window := state.queue.take take
  let progress := ctx.runBatch cap window
  { state with
    queue := state.queue.drop take
    inFlight := state.inFlight ++ [⟨replica, cap, progress.status⟩]
    windows := state.windows ++ [window]
    replies := state.replies ++ progress.replies }

/-- While a replica is free and a request is queued. -/
def dispatch : List Nat → Dispatcher Input Slot → Dispatcher Input Slot
  | [], state => { state with free := [] }
  | replica :: others, state =>
      if state.queue = [] then { state with free := replica :: others }
      else dispatch others (state.startWindow ctx replica)

def failQueue (why : String) : Dispatcher Input Slot :=
  { state with
    queue := []
    mailbox := []
    closed := true
    replies := state.replies ++ failRequests (state.queue ++ requestsOf state.mailbox) why }

def endGraceful : Dispatcher Input Slot :=
  { state.failQueue "model was unloaded" with phase := .draining }

def endFatal (why : String) : Dispatcher Input Slot :=
  { state.failQueue why with phase := .aborting }

/-- Takes what is in the mailbox, up to a shutdown, and dispatches. -/
def drainMailbox : List (DispatchMsg Input) → Dispatcher Input Slot → Dispatcher Input Slot
  | [], state => dispatch ctx state.free { state with mailbox := [] }
  | .predict request :: rest, state =>
      drainMailbox rest { state with queue := state.queue ++ [request] }
  | .shutdown :: rest, state => { state with mailbox := rest }.endGraceful

/-- `recv`, and the rest of the turn. -/
def receive : Dispatcher Input Slot :=
  match state.mailbox with
  | [] => if state.hungUp then state.endGraceful else state
  | .shutdown :: rest => { state with mailbox := rest }.endGraceful
  | .predict request :: rest => drainMailbox ctx rest { state with queue := state.queue ++ [request] }

def removeWindow (index : Nat) : Dispatcher Input Slot :=
  { state with inFlight := state.inFlight.eraseIdx index }

/-- `join_next` while serving, and the rest of the turn. -/
def joinServing (index replica : Nat) : Status Input Slot → Dispatcher Input Slot
  | .finished .continue =>
      let joined := state.removeWindow index
      drainMailbox ctx joined.mailbox { joined with free := replica :: joined.free }
  | .finished (.fatal why) => { state.removeWindow index with phase := .dying why }
  | .panicked => (state.removeWindow index).endFatal "a dispatch window task panicked"
  | .calling _ => state

/-- `join_next` while the model unloads; a replica that died is only killed. -/
def joinDraining (index replica : Nat) : Status Input Slot → Dispatcher Input Slot
  | .finished .continue =>
      let joined := state.removeWindow index
      { joined with free := replica :: joined.free }
  | .finished (.fatal _) => state.removeWindow index
  | .panicked => state.removeWindow index
  | .calling _ => state

def join (index : Nat) : Dispatcher Input Slot :=
  match state.inFlight[index]? with
  | none => state
  | some window =>
      match state.phase with
      | .serving => state.joinServing ctx index window.replica window.status
      | .draining => state.joinDraining index window.replica window.status
      | .dying _ | .aborting => state

def returns (index : Nat) (outcome : CallOutcome) : Dispatcher Input Slot :=
  match state.inFlight[index]? with
  | none => state
  | some window =>
      match window.status with
      | .calling work =>
          let progress := ctx.resume window.cap work outcome
          { state with
            inFlight := state.inFlight.set index { window with status := progress.status }
            calls := state.calls ++ [⟨work.members, work.inputs, outcome⟩]
            replies := state.replies ++ progress.replies }
      | .finished _ | .panicked => state

def abortWindow (index : Nat) : Dispatcher Input Slot :=
  match state.inFlight[index]? with
  | none => state
  | some window =>
      { state.removeWindow index with
        replies := state.replies ++ dropRequests window.status.pending }

/-- A message to a mailbox that is closed comes back to its sender. -/
def send (inputs : List Input) (maxBatch : Option Nat) (payloadBytes : Nat) :
    Dispatcher Input Slot :=
  let request : DispatchRequest Input := ⟨state.sent.length, inputs, maxBatch, payloadBytes⟩
  let sent := { state with sent := state.sent ++ [request] }
  if state.closed then { sent with replies := sent.replies ++ dropRequests [request] }
  else { sent with mailbox := sent.mailbox ++ [.predict request] }

def step : DispatchEvent Input → Dispatcher Input Slot
  | .send inputs maxBatch payloadBytes =>
      if state.hungUp then state else state.send inputs maxBatch payloadBytes
  | .sendShutdown =>
      if state.hungUp ∨ state.closed then state
      else { state with mailbox := state.mailbox ++ [.shutdown] }
  | .hangUp => { state with hungUp := true }
  | .receive =>
      match state.phase with
      | .serving => state.receive ctx
      | .dying _ | .draining | .aborting => state
  | .join index => state.join ctx index
  | .returns index outcome => state.returns ctx index outcome
  | .reaped =>
      match state.phase with
      | .dying why => state.endFatal why
      | .serving | .draining | .aborting => state
  | .graceExpires =>
      match state.phase with
      | .draining => if state.inFlight = [] then state else { state with phase := .aborting }
      | .serving | .dying _ | .aborting => state
  | .aborted index =>
      match state.phase with
      | .aborting => state.abortWindow index
      | .serving | .dying _ | .draining => state

end Dispatcher

/-- A model loaded with as many replicas, which are free. -/
def dispatcherMachine (ctx : DispatcherContext Input Slot) (replicas : Nat) :
    Machine (Dispatcher Input Slot) (DispatchEvent Input) where
  init := ⟨[], false, false, [], List.range replicas, [], .serving, [], [], [], []⟩
  step := Dispatcher.step ctx

end Panoptikon.Inferio.Dispatch
