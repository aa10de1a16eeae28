import Panoptikon.Foundation.KeyedMap
import Panoptikon.Foundation.Machine

/-!
# The transcode pool

`PoolState` and the handlers of `media_tools/transcode/pool.rs`. Ids are given out in
the order of the submits. What the artifact cache answers to a submit comes with the
message, and so does the instant. The log keeps what happened; no function reads it.
-/

namespace Panoptikon.Transcode

open Foundation

inductive JobWeight where
  | light
  | exclusive
deriving DecidableEq

inductive TranscodeJobEvent (Artifact : Type) where
  /-- The position in the queue, from 1. -/
  | queued (position : Nat)
  /-- The bits of a single, when the length of the output is known. -/
  | running (progress : Option UInt32)
  | done (artifact : Artifact)
  | failed (error : String) (cancelled : Bool)

namespace TranscodeJobEvent

variable {Artifact : Type}

def isTerminal : TranscodeJobEvent Artifact → Bool
  | .done _ | .failed _ _ => true
  | .queued _ | .running _ => false

def isQueuedAt (position : Nat) : TranscodeJobEvent Artifact → Bool
  | .queued at_ => at_ = position
  | .running _ | .done _ | .failed _ _ => false

end TranscodeJobEvent

/-- The work is the job with the stem of its download name. -/
structure SubmitRequest (Work : Type) where
  key : String
  weight : JobWeight
  work : Work

inductive SubmitOutcome (Artifact : Type) where
  | hit (artifact : Artifact)
  | created (id : Nat) (event : TranscodeJobEvent Artifact)
  | joined (id : Nat) (event : TranscodeJobEvent Artifact)
  | knownFailure (id : Nat) (event : TranscodeJobEvent Artifact)

inductive JobOutcome (Artifact : Type) where
  | done (artifact : Artifact)
  | failed (error : String) (cancelled : Bool)

def JobOutcome.event {Artifact : Type} : JobOutcome Artifact → TranscodeJobEvent Artifact
  | .done artifact => .done artifact
  | .failed error cancelled => .failed error cancelled

structure JobEntry (Work Artifact : Type) where
  key : String
  weight : JobWeight
  cancel : Bool
  event : TranscodeJobEvent Artifact
  /-- Taken when the job starts. -/
  pending : Option Work

/-- Why a job ends without having started. -/
inductive Withdrawal where
  | cancelled
  | refused
  | shutdown

inductive PoolEntry (Work Artifact : Type) where
  | published (id : Nat) (event : TranscodeJobEvent Artifact)
  | started (id : Nat) (work : Work)
  | withdrawn (id : Nat) (reason : Withdrawal)
  /-- A cancel has flagged the job. -/
  | flagged (id : Nat)
  | submitted (outcome : SubmitOutcome Artifact)
  | cancelReply (found : Bool)
  /-- The reply to a shutdown. -/
  | drained (reply : Nat)

structure PoolArgs where
  maxConcurrent : Nat
  terminalTtl : Nat
  terminalCapacity : Nat

structure PoolState (Work Artifact : Type) where
  args : PoolArgs
  queued : List Nat
  jobs : KeyedMap Nat (JobEntry Work Artifact)
  byKey : KeyedMap String Nat
  /-- The finished jobs with the instant, oldest first. -/
  terminal : List (Nat × Nat)
  running : Nat
  exclusiveRunning : Bool
  shuttingDown : Bool
  awaitingDrain : Option Nat
  nextId : Nat
  /-- The spawned tasks that have not reported. -/
  tasks : List Nat
  log : List (PoolEntry Work Artifact)

namespace PoolState

variable {Work Artifact : Type} (state : PoolState Work Artifact)

def note (entry : PoolEntry Work Artifact) : PoolState Work Artifact :=
  { state with log := state.log ++ [entry] }

/-- The entry of a job with its new event. -/
def publish (id : Nat) (entry : JobEntry Work Artifact) (event : TranscodeJobEvent Artifact) :
    PoolState Work Artifact :=
  { state with jobs := state.jobs.insert id { entry with event } }.note (.published id event)

/-- Frees the key of a job that still holds it. -/
def freeKey (key : String) (id : Nat) : PoolState Work Artifact :=
  if state.byKey.lookup key = some id then { state with byKey := state.byKey.erase key } else state

def pruneTerminal (args : PoolArgs) (now : Nat) : List (Nat × Nat) →
    KeyedMap Nat (JobEntry Work Artifact) → List (Nat × Nat) × KeyedMap Nat (JobEntry Work Artifact)
  | [], jobs => ([], jobs)
  | (id, finishedAt) :: rest, jobs =>
      let expired := decide (args.terminalTtl ≤ now - finishedAt)
      if !expired && decide (rest.length + 1 ≤ args.terminalCapacity) then
        ((id, finishedAt) :: rest, jobs)
      else pruneTerminal args now rest (jobs.erase id)

/-- The job joins the finished ones, of which old ones are forgotten. -/
def retire (now id : Nat) : PoolState Work Artifact :=
  let (terminal, jobs) := pruneTerminal state.args now (state.terminal ++ [(id, now)]) state.jobs
  { state with terminal, jobs }

def rebroadcastFrom : Nat → List Nat → PoolState Work Artifact → PoolState Work Artifact
  | _, [], state => state
  | index, id :: rest, state =>
      match state.jobs.lookup id with
      | none => rebroadcastFrom (index + 1) rest state
      | some entry =>
          if entry.event.isQueuedAt (index + 1) then rebroadcastFrom (index + 1) rest state
          else rebroadcastFrom (index + 1) rest (state.publish id entry (.queued (index + 1)))

def rebroadcastPositions : PoolState Work Artifact := rebroadcastFrom 0 state.queued state

/-- Nothing when there is nothing to start. -/
def startJob (id : Nat) : Option (PoolState Work Artifact) :=
  match state.jobs.lookup id with
  | none => none
  | some entry =>
      match entry.pending with
      | none => none
      | some work =>
          let published := state.publish id { entry with pending := none } (.running none)
          some ({ published with tasks := published.tasks ++ [id] }.note (.started id work))

/-- Settles a job that could not be started. -/
def failUndispatchable (now id : Nat) : PoolState Work Artifact :=
  match state.jobs.lookup id with
  | none => state
  | some entry =>
      ((state.publish id entry (.failed "job vanished before dispatch" false)).freeKey entry.key
        id).retire now id

/-- Starts what the head of the queue allows. -/
def dispatchLoop (now : Nat) : List Nat → PoolState Work Artifact → PoolState Work Artifact
  | [], state => state
  | id :: rest, state =>
      if state.shuttingDown || decide (state.args.maxConcurrent ≤ state.running) then state
      else if state.exclusiveRunning then state
      else
        let weight := (state.jobs.lookup id).map (·.weight)
        if weight = some .exclusive ∧ 0 < state.running then state
        else
          let popped := { state with queued := rest }
          match popped.startJob id with
          | none => dispatchLoop now rest (popped.failUndispatchable now id)
          | some started =>
              dispatchLoop now rest
                { started with
                  running := started.running + 1
                  exclusiveRunning := decide (weight = some .exclusive) || started.exclusiveRunning }

def dispatch (now : Nat) : PoolState Work Artifact :=
  (dispatchLoop now state.queued state).rebroadcastPositions

/-- A job that is born finished. -/
def insertTerminalJob (now : Nat) (key : String) (event : TranscodeJobEvent Artifact) :
    PoolState Work Artifact × Nat :=
  let id := state.nextId
  let entry : JobEntry Work Artifact := ⟨key, .light, false, event, none⟩
  let inserted := ({ state with nextId := id + 1 }.note (.withdrawn id .refused)).publish id entry event
  (inserted.retire now id, id)

def refuse (now : Nat) (key : String) (error : String) (cancelled : Bool) : PoolState Work Artifact :=
  let event := TranscodeJobEvent.failed error cancelled
  let (inserted, id) := state.insertTerminalJob now key event
  inserted.note (.submitted (.knownFailure id event))

/-- The job a key is in flight for. -/
def jobForKey (key : String) : Option (Nat × JobEntry Work Artifact) :=
  match state.byKey.lookup key with
  | none => none
  | some id => (state.jobs.lookup id).map fun entry => (id, entry)

def submitNew (now : Nat) (request : SubmitRequest Work) : PoolState Work Artifact :=
  let id := state.nextId
  let event := TranscodeJobEvent.queued (state.queued.length + 1)
  let entry : JobEntry Work Artifact :=
    ⟨request.key, request.weight, false, event, some request.work⟩
  let inserted := { state with nextId := id + 1 }.publish id entry event
  let keyed := { inserted with
    byKey := inserted.byKey.insert request.key id
    queued := inserted.queued ++ [id] }
  let dispatched := keyed.dispatch now
  dispatched.note (.submitted (.created id (((dispatched.jobs.lookup id).map (·.event)).getD event)))

def submitJob (now : Nat) (request : SubmitRequest Work) (cached : Option Artifact)
    (knownFailure : Option String) : PoolState Work Artifact :=
  match cached with
  | some artifact => state.note (.submitted (.hit artifact))
  | none =>
      match state.jobForKey request.key with
      | some (id, entry) => state.note (.submitted (.joined id entry.event))
      | none =>
          if state.shuttingDown then
            state.refuse now request.key "server is shutting down" true
          else
            match knownFailure with
            | some error => state.refuse now request.key error false
            | none => state.submitNew now request

def cancelJob (now id : Nat) : PoolState Work Artifact :=
  match state.jobs.lookup id with
  | none => state.note (.cancelReply false)
  | some entry =>
      if entry.event.isTerminal then state.note (.cancelReply false)
      else
        let flagged := { entry with cancel := true }
        let freed :=
          ({ state with jobs := state.jobs.insert id flagged }.freeKey entry.key id).note (.flagged id)
        if id ∈ freed.queued then
          let removed := { freed with queued := freed.queued.erase id }
          let published :=
            (removed.note (.withdrawn id .cancelled)).publish id flagged (.failed "cancelled" true)
          ((published.retire now id).rebroadcastPositions).note (.cancelReply true)
        else freed.note (.cancelReply true)

def progressJob (id : Nat) (progress : Option UInt32) : PoolState Work Artifact :=
  match state.jobs.lookup id with
  | none => state
  | some entry => if entry.event.isTerminal then state else state.publish id entry (.running progress)

def finishJob (now id : Nat) (outcome : JobOutcome Artifact) : PoolState Work Artifact :=
  match state.jobs.lookup id with
  | none => state
  | some entry =>
      let freed := (state.publish id entry outcome.event).freeKey entry.key id
      let stopped := { freed with
        exclusiveRunning := if entry.weight = JobWeight.exclusive then false else freed.exclusiveRunning
        running := freed.running - 1 }
      let retired := stopped.retire now id
      let answered :=
        if retired.running = 0 then
          match retired.awaitingDrain with
          | some reply => { retired with awaitingDrain := none }.note (.drained reply)
          | none => retired
        else retired
      answered.dispatch now

/-- Each queued job ends where it is. -/
def dropQueued (now : Nat) : List Nat → PoolState Work Artifact → PoolState Work Artifact
  | [], state => state
  | id :: rest, state =>
      match state.jobs.lookup id with
      | none => dropQueued now rest state
      | some entry =>
          let published := (state.note (.withdrawn id .shutdown)).publish id entry
            (.failed "server is shutting down" true)
          dropQueued now rest ((published.freeKey entry.key id).retire now id)

def shutdown (now reply : Nat) : PoolState Work Artifact :=
  let dropped := dropQueued now state.queued { state with shuttingDown := true, queued := [] }
  let flagged := { dropped with
    jobs := dropped.jobs.mapValues fun entry => { entry with cancel := true } }
  if flagged.running = 0 then flagged.note (.drained reply)
  else { flagged with awaitingDrain := some reply }

end PoolState

inductive PoolEvent (Work Artifact : Type) where
  | submit (request : SubmitRequest Work) (cached : Option Artifact) (knownFailure : Option String)
  | cancel (id : Nat)
  /-- From the task of a job that was started. -/
  | progress (id : Nat) (progress : Option UInt32)
  /-- The last message of the task of a job. -/
  | finished (id : Nat) (outcome : JobOutcome Artifact)
  | shutdown (reply : Nat)

def startedIds {Work Artifact : Type} (log : List (PoolEntry Work Artifact)) : List Nat :=
  log.filterMap fun entry =>
    match entry with
    | .started id _ => some id
    | _ => none

def PoolState.handle {Work Artifact : Type} (state : PoolState Work Artifact) (now : Nat) :
    PoolEvent Work Artifact → PoolState Work Artifact
  | .submit request cached knownFailure => state.submitJob now request cached knownFailure
  | .cancel id => state.cancelJob now id
  | .progress id progress => if id ∈ startedIds state.log then state.progressJob id progress else state
  | .finished id outcome =>
      if id ∈ state.tasks then
        { state with tasks := state.tasks.erase id }.finishJob now id outcome
      else state
  | .shutdown reply => state.shutdown now reply

/-- The pool as it is spawned, with the instant of each message. -/
def poolMachine (Work Artifact : Type) (args : PoolArgs) :
    Machine (PoolState Work Artifact) (Nat × PoolEvent Work Artifact) where
  init :=
    { args := { args with maxConcurrent := max args.maxConcurrent 1 }
      queued := [], jobs := ∅, byKey := ∅, terminal := [], running := 0, exclusiveRunning := false,
      shuttingDown := false, awaitingDrain := none, nextId := 0, tasks := [], log := [] }
  step := fun state event => state.handle event.1 event.2

end Panoptikon.Transcode
