import Panoptikon.Foundation.Machine
import Panoptikon.Foundation.Semaphore

/-!
# The pools of an extraction job

The dispatcher loop of `run_extraction_job` and the permits of `process_item` and
`predict_units` in `jobs/extraction.rs`. What a step finds out (the inputs of an
item, how a predict call ends) comes with the event. A task that panics or is
aborted is dropped, which releases what it holds.
-/

namespace Panoptikon.Extraction

open Foundation

structure JobSetting where
  groupName : String
  inferenceId : Option String
  defaultBatchSize : Option Int

structure ModelMetadata where
  group : String
  setterName : String
  defaultBatchSize : Int

/-- The last setting of these that names a batch size. -/
def settingsBatch (settings : List JobSetting) (chosen : Int) : Int :=
  settings.foldl (fun chosen setting => setting.defaultBatchSize.getD chosen) chosen

/-- `resolve_job_defaults`. -/
def resolveBatchSize (settings : List JobSetting) (model : ModelMetadata) (batchSize : Option Int) : Int :=
  let ofGroup := settings.filter fun setting => setting.groupName = model.group
  let chosen := max model.defaultBatchSize 1
  let chosen := settingsBatch (ofGroup.filter fun setting => setting.inferenceId.isNone) chosen
  let chosen := settingsBatch
    (ofGroup.filter fun setting => setting.inferenceId = some model.setterName) chosen
  let chosen := match batchSize with
    | some batch => if 0 < batch then batch else chosen
    | none => chosen
  max chosen 1

/-- `JobInferenceContext` and the batch size of the job. -/
structure PoolSizes where
  loaderConcurrency : Nat
  intermediateBudgetKib : UInt32
  batchSize : Nat

def poolSizes (loaderConcurrency : Nat) (intermediateBudgetKib : UInt32) (settings : List JobSetting)
    (model : ModelMetadata) (batchSize : Option Int) : PoolSizes :=
  ⟨loaderConcurrency, intermediateBudgetKib, (resolveBatchSize settings model batchSize).toNat⟩

namespace PoolSizes

variable (sizes : PoolSizes)

def loaderPermits : Nat := max sizes.loaderConcurrency 1

def budgetCapacity : Nat := max sizes.intermediateBudgetKib.toNat 1

def unitCapacity : Nat := max sizes.batchSize 1

end PoolSizes

/-- `Semaphore::MAX_PERMITS` of tokio, beyond which `Semaphore::new` panics. -/
def maxPermits : Nat := 2 ^ 61 - 1

def saturateU32 (value : Nat) : Nat := min value (2 ^ 32 - 1)

def inputMemoryKib (bytes : Nat) : Nat := saturateU32 ((bytes + 1023) / 1024)

/-- `inputs.len() as u32`. -/
def truncateU32 (value : Nat) : Nat := value % 2 ^ 32

/-- The lengths of the chunks of an item's inputs. -/
def chunkLengths (size units : Nat) : List Nat :=
  List.replicate (units / size) size ++ if units % size = 0 then [] else [units % size]

/-- Where an item's task is. The requests are the lengths of the slices still to be predicted. -/
inductive Phase where
  /-- With its loader permit. -/
  | loading
  /-- With its loader permit. -/
  | waitingBudget (want : Nat) (requests : List Nat)
  | ready (held : Nat) (requests : List Nat)
  | waitingUnits (held want request : Nat) (rest : List Nat)
  | inFlight (held permits request : Nat) (rest : List Nat)
  /-- Counting the outcome, with what has not been released. -/
  | finalizing (loader held : Nat)
  | done
deriving DecidableEq

inductive Dispatcher where
  | reading
  | waitingLoader
  | joining
  | ended
  | aborted
deriving DecidableEq

structure JobState where
  loaderSlots : Semaphore
  budgetSlots : Semaphore
  unitSlots : Semaphore
  dispatcher : Dispatcher
  tasks : List Phase

/-- How a predict call ended. -/
inductive Reply where
  | answered
  /-- The call failed, not by a protocol violation. -/
  | failed
  /-- A protocol violation, or outputs that cannot be merged. -/
  | refused

inductive Event where
  | nextItem
  | endOfItems
  | admitLoader
  /-- The item has this many bytes in memory and this many inputs. -/
  | loaded (task bytes units : Nat)
  | loadFailed (task : Nat)
  | admitBudget
  | request (task : Nat)
  | admitUnits
  | replied (task : Nat) (reply : Reply)
  | finalized (task : Nat)
  | joined
  /-- The job is cancelled; its tasks are dropped in any order. -/
  | cancelled
  | dropped (task : Nat)

namespace JobState

variable (sizes : PoolSizes) (state : JobState)

def setTask (task : Nat) (phase : Phase) : JobState := { state with tasks := state.tasks.set task phase }

/-- The loader permit moves into the task. -/
def spawn (loaderSlots : Semaphore) : JobState :=
  { state with
    loaderSlots := loaderSlots
    dispatcher := .reading
    tasks := state.tasks ++ [.loading] }

def nextItem : JobState :=
  if state.loaderSlots.grants 1 then state.spawn (state.loaderSlots.take 1)
  else
    { state with
      loaderSlots := state.loaderSlots.enqueue state.tasks.length 1
      dispatcher := .waitingLoader }

/-- Budget is reserved before the loader permit is released. -/
def loaded (task bytes units : Nat) : JobState :=
  let kib := inputMemoryKib bytes
  let requests := chunkLengths sizes.unitCapacity units
  if units = 0 then state.setTask task (.finalizing 1 0)
  else if kib = 0 then
    { state.setTask task (.ready 0 requests) with loaderSlots := state.loaderSlots.release 1 }
  else
    let want := min kib sizes.budgetCapacity
    if state.budgetSlots.grants want then
      { state.setTask task (.ready want requests) with
        loaderSlots := state.loaderSlots.release 1
        budgetSlots := state.budgetSlots.take want }
    else
      { state.setTask task (.waitingBudget want requests) with
        budgetSlots := state.budgetSlots.enqueue task want }

/-- `predict_units` up to its permits. -/
def request (task held length : Nat) (rest : List Nat) : JobState :=
  let want := truncateU32 length
  if state.unitSlots.grants want then
    { state.setTask task (.inFlight held want length rest) with unitSlots := state.unitSlots.take want }
  else
    { state.setTask task (.waitingUnits held want length rest) with
      unitSlots := state.unitSlots.enqueue task want }

/-- What the task does next after a predict call; a chunk that failed is predicted input by input. -/
def afterReply (held length : Nat) (rest : List Nat) : Reply → Phase
  | .answered => .ready held rest
  | .failed => if 1 < length then .ready held (List.replicate length 1 ++ rest) else .finalizing 0 held
  | .refused => .finalizing 0 held

def replied (task held permits length : Nat) (rest : List Nat) (reply : Reply) : JobState :=
  { state.setTask task (afterReply held length rest reply) with
    unitSlots := state.unitSlots.release permits }

end JobState

namespace Phase

def loaderHeld : Phase → Nat
  | loading => 1
  | waitingBudget _ _ => 1
  | finalizing loader _ => loader
  | _ => 0

def budgetHeld : Phase → Nat
  | ready held _ => held
  | waitingUnits held _ _ _ => held
  | inFlight held _ _ _ => held
  | finalizing _ held => held
  | _ => 0

def unitPermits : Phase → Nat
  | inFlight _ permits _ _ => permits
  | _ => 0

/-- The work units inside a predict call. -/
def unitsInFlight : Phase → Nat
  | inFlight _ _ length _ => length
  | _ => 0

def budgetWait : Phase → Option Nat
  | waitingBudget want _ => some want
  | _ => none

def unitWait : Phase → Option Nat
  | waitingUnits _ want _ _ => some want
  | _ => none

end Phase

namespace JobState

variable (sizes : PoolSizes) (state : JobState)

def finalized (task loader held : Nat) : JobState :=
  { state.setTask task .done with
    loaderSlots := state.loaderSlots.release loader
    budgetSlots := state.budgetSlots.release held }

/-- Dropping a task drops its permits and its place in a queue. -/
def dropTask (task : Nat) (phase : Phase) : JobState :=
  { state.setTask task .done with
    loaderSlots := state.loaderSlots.release phase.loaderHeld
    budgetSlots := (state.budgetSlots.leave task).release phase.budgetHeld
    unitSlots := (state.unitSlots.leave task).release phase.unitPermits }

/-- The step of an event, which is none when the event cannot happen. -/
def step? : Event → Option JobState
  | .nextItem => if state.dispatcher = .reading then some state.nextItem else none
  | .endOfItems =>
      if state.dispatcher = .reading then some { state with dispatcher := .joining } else none
  | .admitLoader =>
      if state.dispatcher = .waitingLoader then
        state.loaderSlots.admitFirst.map fun admitted => state.spawn admitted.2.2
      else none
  | .loaded task bytes units =>
      match state.tasks[task]? with
      | some .loading => some (state.loaded sizes task bytes units)
      | _ => none
  | .loadFailed task =>
      match state.tasks[task]? with
      | some .loading => some (state.setTask task (.finalizing 1 0))
      | _ => none
  | .admitBudget =>
      match state.budgetSlots.admitFirst with
      | none => none
      | some (task, want, budgetSlots) =>
          match state.tasks[task]? with
          | some (.waitingBudget _ requests) =>
              some { state.setTask task (.ready want requests) with
                loaderSlots := state.loaderSlots.release 1
                budgetSlots := budgetSlots }
          | _ => none
  | .request task =>
      match state.tasks[task]? with
      | some (.ready held []) => some (state.setTask task (.finalizing 0 held))
      | some (.ready held (length :: rest)) => some (state.request task held length rest)
      | _ => none
  | .admitUnits =>
      match state.unitSlots.admitFirst with
      | none => none
      | some (task, want, unitSlots) =>
          match state.tasks[task]? with
          | some (.waitingUnits held _ length rest) =>
              some { state.setTask task (.inFlight held want length rest) with unitSlots := unitSlots }
          | _ => none
  | .replied task reply =>
      match state.tasks[task]? with
      | some (.inFlight held permits length rest) =>
          some (state.replied task held permits length rest reply)
      | _ => none
  | .finalized task =>
      match state.tasks[task]? with
      | some (.finalizing loader held) => some (state.finalized task loader held)
      | _ => none
  | .joined =>
      if state.dispatcher = .joining ∧ ∀ phase ∈ state.tasks, phase = .done then
        some { state with dispatcher := .ended }
      else none
  | .cancelled =>
      if state.dispatcher = .ended then none
      else
        some { state with
          loaderSlots := { state.loaderSlots with queue := [] }
          dispatcher := .aborted }
  | .dropped task =>
      match state.tasks[task]? with
      | some .done => none
      | some phase => some (state.dropTask task phase)
      | none => none

end JobState

/-- The pools as the job creates them; none when a semaphore panics. -/
def startJob (sizes : PoolSizes) : Option JobState := do
  let loaderSlots ← Semaphore.create maxPermits sizes.loaderPermits
  let budgetSlots ← Semaphore.create maxPermits sizes.budgetCapacity
  let unitSlots ← Semaphore.create maxPermits sizes.batchSize
  return ⟨loaderSlots, budgetSlots, unitSlots, .reading, []⟩

/-- The states of a job, none once it has panicked. What cannot happen changes nothing. -/
def machine (sizes : PoolSizes) : Machine (Option JobState) Event where
  init := startJob sizes
  step state event := state.map fun state => (state.step? sizes event).getD state

end Panoptikon.Extraction
