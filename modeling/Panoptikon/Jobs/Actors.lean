import Panoptikon.Foundation.Machine
import Panoptikon.Jobs.Queue

/-!
# The queue and its runner

`JobQueueActor` and `JobRunnerActor` of `jobs/queue.rs` with their mailboxes. A
handler of the queue goes task by task and rests where it waits for the runner;
meanwhile the runner works through its mailbox, jobs end, and messages arrive. A
job's watcher reports its end to the runner however it ends.
-/

namespace Panoptikon.Jobs

open Foundation

inductive ClientMessage where
  | enqueue (request : JobRequest)
  | enqueueBatch (requests : List JobRequest) (dedups : List BatchDedup)
  | enqueueMaintenance (indexDb userDataDb : String)
  | getQueueStatus
  | cancelQueued (queueIds : List Int) (suppress : Bool)
  | cancelRunning (suppress : Bool)
  | recordOwed (indexDb : String) (summary : ChangeSummary)
  | shutdown

inductive QueueMessage where
  | client (message : ClientMessage)
  | runnerFinished (queueId : Int) (result : JobRunResult)

inductive RunnerMessage where
  | runJob (job : Job)
  | cancelRunning
  | jobCompleted (queueId : Int) (result : JobRunResult)

inductive RunnerReply where
  | accepted
  | busy
  | cancelled (queueId : Option Int)

/-- What a caller hears. -/
inductive Answer where
  | refused
  | enqueued (model : JobModel)
  | batch (models : List JobModel) (skipped : List String)
  | maintenance (model : Option JobModel)
  | status (queue : List JobModel) (outcomes : List JobOutcome)
  | cancelled (queueIds : List Int)
  | cancelledRunning (queueId : Option Int)

/-- What is left of the handler of a message. -/
inductive Task where
  | startNext
  | cancel (suppress : Bool)
  /-- The rest of a cancel by ids, once the running job is dealt with. -/
  | closeCancel (found : QueueState.Cancelling) (suppress : Bool)
  | closeCancelRunning
  | closeShutdown
  /-- The answer, and the marks of the message. -/
  | close (answer : Option Answer)

inductive Waiting where
  | starting (job : Job)
  | cancelling (running : Job) (suppress : Bool)

structure JobSystem where
  state : QueueState
  mailbox : List QueueMessage
  tasks : List Task
  waiting : Option Waiting
  reply : Option RunnerReply
  /-- What the last cancel of a running job came to. -/
  confirmed : Option Int
  runnerMailbox : List RunnerMessage
  runnerRunning : Option Int
  /-- The jobs whose watcher has not reported. -/
  watched : List Int
  started : List Int
  rejected : List Int
  answers : List Answer

inductive JobEvent where
  | post (message : ClientMessage)
  | queueTurn
  | runnerTurn
  /-- A job ends, and its watcher reports. -/
  | jobEnds (queueId : Int) (result : JobRunResult)

namespace JobSystem

variable (system : JobSystem)

def answer (answer : Answer) : JobSystem := { system with answers := system.answers ++ [answer] }

/-- Goes on with a state and these tasks. -/
def goOn (state : QueueState) (tasks : List Task) : JobSystem := { system with state, tasks }

/-- A job is started behind an enqueue only when none runs. -/
def startIfIdle (state : QueueState) : List Task :=
  if state.runningJob.isNone then [.startNext] else []

def enqueue (request : JobRequest) : JobSystem :=
  if system.state.shuttingDown then system.answer .refused
  else
    let (state, model) := system.state.pushJob request
    system.goOn state (startIfIdle state ++ [.close (some (.enqueued model))])

def enqueueBatch (requests : List JobRequest) (dedups : List BatchDedup) : JobSystem :=
  if system.state.shuttingDown then system.answer .refused
  else
    let skipped := system.state.skippedDbs dedups []
    let (state, models) :=
      QueueState.pushJobs (requests.filter fun request => !skipped.contains request.indexDb)
        system.state
    let start := if models.isEmpty then [] else startIfIdle state
    system.goOn state (start ++ [.close (some (.batch models skipped))])

def enqueueMaintenance (indexDb userDataDb : String) : JobSystem :=
  let isFor := QueueState.isMaintenanceFor indexDb
  if system.state.shuttingDown then system.answer .refused
  else if system.state.runningJob.any isFor then system.answer (.maintenance none)
  else
    match system.state.queue.find? isFor with
    | some job =>
        let upgraded := { system.state with queue := QueueState.upgradeFirst indexDb system.state.queue }
        let indexed := upgraded.upgradeQueued job
        let cleared := { indexed with owed := indexed.owed.erase indexDb }
        { system with state := cleared.note (.upgraded (QueueState.upgrade job)) }.answer
          (.maintenance (some ⟨QueueState.upgrade job, false⟩))
    | none =>
        let cleared := { system.state with owed := system.state.owed.erase indexDb }
        let (state, model) := cleared.pushMaintenanceJob indexDb userDataDb .all false
        system.goOn state (startIfIdle state ++ [.close (some (.maintenance (some model)))])

def getQueueStatus : JobSystem :=
  let running := system.state.runningJob.toList.map fun job => JobModel.mk job true
  let queued := system.state.queue.map fun job => JobModel.mk job false
  system.goOn system.state [.close (some (.status (running ++ queued) system.state.outcomes))]

def cancelQueued (queueIds : List Int) (suppress : Bool) : JobSystem :=
  let (state, found) := QueueState.cancelQueued queueIds ⟨none, [], []⟩ system.state
  let running := if found.runningTarget.isSome then [Task.cancel suppress] else []
  system.goOn state (running ++ [.closeCancel found suppress])

def runnerFinished (queueId : Int) (result : JobRunResult) : JobSystem :=
  match system.state.runningJob with
  | none => system.goOn system.state.flushTagsDirtyMarks []
  | some running =>
      if running.queueId = queueId then
        system.goOn (system.state.finishRunning running result) [.startNext, .close none]
      else system.goOn system.state.flushTagsDirtyMarks []

def handle : QueueMessage → JobSystem
  | .client (.enqueue request) => system.enqueue request
  | .client (.enqueueBatch requests dedups) => system.enqueueBatch requests dedups
  | .client (.enqueueMaintenance indexDb userDataDb) =>
      system.enqueueMaintenance indexDb userDataDb
  | .client .getQueueStatus => system.getQueueStatus
  | .client (.cancelQueued queueIds suppress) => system.cancelQueued queueIds suppress
  | .client (.cancelRunning suppress) =>
      system.goOn system.state [.cancel suppress, .closeCancelRunning]
  | .client (.recordOwed indexDb summary) =>
      system.goOn (system.state.recordReport indexDb summary) [.close none]
  | .client .shutdown => system.goOn system.state.shed [.cancel true, .closeShutdown]
  | .runnerFinished queueId result => system.runnerFinished queueId result

def ask (message : RunnerMessage) (waiting : Waiting) : JobSystem :=
  { system with
    runnerMailbox := system.runnerMailbox ++ [message]
    waiting := some waiting }

def startNext : JobSystem :=
  if system.state.shuttingDown || system.state.runningJob.isSome then system
  else
    match system.state.queue with
    | [] => system
    | job :: rest =>
        { system with
          state := { system.state with
            queue := rest
            queuedJobs := system.state.queuedJobs.erase job.queueId } }.ask
          (.runJob job) (.starting job)

def cancelRunning (suppress : Bool) : JobSystem :=
  match system.state.runningJob with
  | none => { system with confirmed := none }
  | some running => system.ask .cancelRunning (.cancelling running suppress)

def closeCancel (found : QueueState.Cancelling) (suppress : Bool) : JobSystem :=
  let target :=
    match found.runningTarget with
    | none => []
    | some queueId => if system.confirmed = some queueId then [queueId] else []
  let state := QueueState.boundaries suppress found.removed system.state
  system.goOn state.maybeUnloadBatchModel
    (.startNext :: .close (some (.cancelled (found.cancelled ++ target))) :: system.tasks)

def close (answers : List Answer) : JobSystem :=
  { system with
    state := system.state.flushTagsDirtyMarks
    answers := system.answers ++ answers }

def perform : Task → JobSystem
  | .startNext => system.startNext
  | .cancel suppress => system.cancelRunning suppress
  | .closeCancel found suppress => system.closeCancel found suppress
  | .closeCancelRunning => system.close [.cancelledRunning system.confirmed]
  | .closeShutdown =>
      { system with state := system.state.maybeUnloadBatchModel }.close
        [.cancelledRunning system.confirmed]
  | .close answer => system.close answer.toList

/-- The handler goes on with the runner's reply. -/
def resume (waiting : Waiting) (reply : RunnerReply) : JobSystem :=
  match waiting, reply with
  | .starting job, .accepted => { system with state := { system.state with runningJob := some job } }
  | .starting job, .busy =>
      { system with
        state := system.state.recordOutcome job.queueId .failed (some "Job runner busy") }
  | .starting job, .cancelled _ =>
      { system with
        state := system.state.recordOutcome job.queueId .failed
          (some "job runner dropped its response") }
  | .cancelling running suppress, .cancelled (some queueId) =>
      if running.queueId = queueId then
        { system with
          state := system.state.confirmCancel running suppress
          confirmed := some queueId
          tasks := .startNext :: system.tasks }
      else { system with confirmed := none }
  | .cancelling _ _, _ => { system with confirmed := none }

/-- One step of the queue: the reply it waits for, a task, or a message. -/
def queueTurn : JobSystem :=
  match system.waiting with
  | some waiting =>
      match system.reply with
      | some reply => { system with waiting := none, reply := none }.resume waiting reply
      | none => system
  | none =>
      match system.tasks with
      | task :: rest => { system with tasks := rest }.perform task
      | [] =>
          match system.mailbox with
          | message :: rest => { system with mailbox := rest }.handle message
          | [] => system

def respond (reply : RunnerReply) : JobSystem := { system with reply := some reply }

def runJob (job : Job) : JobSystem :=
  if system.runnerRunning.isSome then
    { system with rejected := system.rejected ++ [job.queueId] }.respond .busy
  else
    { system with
      runnerRunning := some job.queueId
      watched := system.watched ++ [job.queueId]
      started := system.started ++ [job.queueId] }.respond .accepted

def jobCompleted (queueId : Int) (result : JobRunResult) : JobSystem :=
  let running := if system.runnerRunning = some queueId then none else system.runnerRunning
  { system with
    runnerRunning := running
    mailbox := system.mailbox ++ [.runnerFinished queueId result] }

def handleRunner : RunnerMessage → JobSystem
  | .runJob job => system.runJob job
  | .cancelRunning =>
      { system with runnerRunning := none }.respond (.cancelled system.runnerRunning)
  | .jobCompleted queueId result => system.jobCompleted queueId result

def runnerTurn : JobSystem :=
  match system.runnerMailbox with
  | message :: rest => { system with runnerMailbox := rest }.handleRunner message
  | [] => system

def jobEnds (queueId : Int) (result : JobRunResult) : JobSystem :=
  if queueId ∈ system.watched then
    { system with
      watched := system.watched.erase queueId
      runnerMailbox := system.runnerMailbox ++ [.jobCompleted queueId result] }
  else system

def step : JobEvent → JobSystem
  | .post message => { system with mailbox := system.mailbox ++ [.client message] }
  | .queueTurn => system.queueTurn
  | .runnerTurn => system.runnerTurn
  | .jobEnds queueId result => system.jobEnds queueId result

end JobSystem

/-- The queue and the runner it has just spawned. -/
def jobMachine : Machine JobSystem JobEvent where
  init :=
    { state := ⟨[], ∅, none, [], 0, false, ∅, none, [], [], []⟩
      mailbox := [], tasks := [], waiting := none, reply := none, confirmed := none,
      runnerMailbox := [], runnerRunning := none, watched := [], started := [], rejected := [],
      answers := [] }
  step := JobSystem.step

end Panoptikon.Jobs
