import Panoptikon.Foundation.ByteText
import Panoptikon.Foundation.KeyedMap

/-!
# The job queue

The state of `JobQueueActor` in `jobs/queue.rs` and the functions its handlers are
made of: the queue with its index by id, the recent outcomes, and the maintenance
each database is owed. The log keeps what happened, for the statements about whole
runs; no function reads it.
-/

namespace Panoptikon.Jobs

open Foundation

inductive JobType where
  | dataExtraction
  | dataDeletion
  | folderRescan
  | folderUpdate
  | jobDataDeletion
  | vectorQuantReconcile
  | dbMaintenance
deriving DecidableEq

structure ChangeSummary where
  wroteData : Bool
  deletedData : Bool
  tagsChanged : Bool
deriving DecidableEq

namespace ChangeSummary

def none : ChangeSummary := ⟨false, false, false⟩

def all : ChangeSummary := ⟨true, true, true⟩

def isEmpty (summary : ChangeSummary) : Bool :=
  !summary.wroteData && !summary.deletedData && !summary.tagsChanged

def orWith (summary other : ChangeSummary) : ChangeSummary :=
  ⟨summary.wroteData || other.wroteData, summary.deletedData || other.deletedData,
    summary.tagsChanged || other.tagsChanged⟩

def wroteDataFlag : Text := "wrote_data".toList

def deletedDataFlag : Text := "deleted_data".toList

def tagsChangedFlag : Text := "tags_changed".toList

def toMetadata (summary : ChangeSummary) : Text :=
  let flags := (if summary.wroteData then [wroteDataFlag] else []) ++
    (if summary.deletedData then [deletedDataFlag] else []) ++
    (if summary.tagsChanged then [tagsChangedFlag] else [])
  List.intercalate [','] flags

def readFlag (summary : ChangeSummary) (flag : Text) : ChangeSummary :=
  let name := Text.trim flag
  if name = wroteDataFlag then { summary with wroteData := true }
  else if name = deletedDataFlag then { summary with deletedData := true }
  else if name = tagsChangedFlag then { summary with tagsChanged := true }
  else summary

def fromMetadata (metadata : Option Text) : ChangeSummary :=
  ((metadata.getD []).splitOn ',').foldl readFlag none

end ChangeSummary

structure JobRequest where
  jobType : JobType
  indexDb : String
  userDataDb : String
  metadata : Option Text
  batchSize : Option Int
  /-- The bits of a double. -/
  threshold : Option UInt64
  logId : Option Int
  tag : Option Text
deriving DecidableEq

structure Job extends JobRequest where
  queueId : Int
deriving DecidableEq

/-- A job as its callers see it. -/
structure JobModel where
  job : Job
  running : Bool

inductive JobOutcomeStatus where
  | completed
  | failed
  | cancelled
deriving DecidableEq

structure JobOutcome where
  queueId : Int
  status : JobOutcomeStatus
  error : Option String
deriving DecidableEq

structure JobRunResult where
  success : Bool
  error : Option String
  summary : Option ChangeSummary
  loadedModel : Option Text

structure BatchDedup where
  tag : Text
  indexDb : String

/-- Where flags that are owed come from. -/
inductive OwedSource where
  | boundary (job : Job)
  | report
deriving DecidableEq

inductive QueueEntry where
  | outcome (outcome : JobOutcome)
  | owes (indexDb : String) (summary : ChangeSummary) (source : OwedSource)
  /-- A job ended, and its boundary may not schedule when suppressed. -/
  | boundary (job : Job) (suppressed : Bool)
  /-- A maintenance job with its flags, from a boundary or on request, and the jobs
  that were there before it. -/
  | appended (job : Job) (flags : ChangeSummary) (synthesized : Bool) (beside : List Job)
  | upgraded (job : Job)
  /-- A report was dropped because a maintenance job runs. -/
  | ignored (indexDb : String)
  /-- Dropped from the queue by a shutdown. -/
  | shed (job : Job)
deriving DecidableEq

/-- What is spawned for, or awaited at a shutdown. -/
inductive QueueEffect where
  | markTagsDirty (indexDb : String)
  | unloadBatchModel (setter : Text)

structure QueueState where
  queue : List Job
  queuedJobs : KeyedMap Int Job
  runningJob : Option Job
  outcomes : List JobOutcome
  jobCounter : Int
  shuttingDown : Bool
  owed : KeyedMap String ChangeSummary
  batchLoaded : Option Text
  pendingMarks : List String
  effects : List QueueEffect
  log : List QueueEntry

@[irreducible] def maxRecentOutcomes : Nat := 256

namespace QueueState

variable (state : QueueState)

def note (entry : QueueEntry) : QueueState := { state with log := state.log ++ [entry] }

/-- A job with the next id, at the back. -/
def append (request : JobRequest) : QueueState × Job :=
  let job : Job := { request with queueId := state.jobCounter + 1 }
  ({ state with
      jobCounter := state.jobCounter + 1
      queue := state.queue ++ [job]
      queuedJobs := state.queuedJobs.insert job.queueId job }, job)

def pushJob (request : JobRequest) : QueueState × JobModel :=
  let (state, job) := state.append request
  (state, ⟨job, false⟩)

def pushJobs : List JobRequest → QueueState → QueueState × List JobModel
  | [], state => (state, [])
  | request :: rest, state =>
      let (state, model) := state.pushJob request
      let (state, models) := pushJobs rest state
      (state, model :: models)

/-- The running job and the queued ones. -/
def present : List Job := state.runningJob.toList ++ state.queue

def pushMaintenanceJob (indexDb userDataDb : String) (flags : ChangeSummary)
    (synthesized : Bool) : QueueState × JobModel :=
  let beside := state.present
  let (state, job) := state.append
    { jobType := .dbMaintenance, indexDb, userDataDb, metadata := some flags.toMetadata,
      batchSize := none, threshold := none, logId := none, tag := none }
  (state.note (.appended job flags synthesized beside), ⟨job, false⟩)

def recordOutcome (queueId : Int) (status : JobOutcomeStatus) (error : Option String) :
    QueueState :=
  let outcomes := state.outcomes ++ [⟨queueId, status, error⟩]
  { state with outcomes := outcomes.drop (outcomes.length - maxRecentOutcomes) }.note
    (.outcome ⟨queueId, status, error⟩)

def deletes : JobType → Bool
  | .folderRescan | .folderUpdate | .dataDeletion | .jobDataDeletion => true
  | .dataExtraction | .vectorQuantReconcile | .dbMaintenance => false

def pessimisticSummary (job : Job) : ChangeSummary :=
  if job.jobType = .vectorQuantReconcile then ⟨true, true, false⟩
  else ⟨true, deletes job.jobType, deletes job.jobType⟩

def mergeOwed (indexDb : String) (summary : ChangeSummary) (source : OwedSource) : QueueState :=
  let summary := { summary with tagsChanged := summary.tagsChanged || summary.deletedData }
  if summary.isEmpty then state
  else
    let entry := (state.owed.lookup indexDb).getD .none
    let merged := entry.orWith summary
    let marked := { state with owed := state.owed.insert indexDb merged }.note
      (.owes indexDb summary source)
    if merged.tagsChanged && !entry.tagsChanged && !state.pendingMarks.contains indexDb then
      { marked with pendingMarks := marked.pendingMarks ++ [indexDb] }
    else marked

/-- A maintenance job never owes maintenance. -/
def recordOwed (job : Job) (summary : Option ChangeSummary) : QueueState :=
  if job.jobType = .dbMaintenance then state
  else
    state.mergeOwed job.indexDb (summary.getD (pessimisticSummary job)) (.boundary job)

def maybeScheduleMaintenance (finished : Job) : QueueState :=
  if state.shuttingDown then state
  else
    match state.owed.lookup finished.indexDb with
    | none => state
    | some owed =>
        if owed.isEmpty then { state with owed := state.owed.erase finished.indexDb }
        else if state.present.any fun job => job.indexDb = finished.indexDb then state
        else
          let pendingMarks :=
            if owed.tagsChanged then state.pendingMarks.filter (· ≠ finished.indexDb)
            else state.pendingMarks
          let cleared := { state with owed := state.owed.erase finished.indexDb, pendingMarks }
          (cleared.pushMaintenanceJob finished.indexDb finished.userDataDb owed true).1

/-- The end of a job, at which maintenance may be scheduled. -/
def boundary (finished : Job) (suppress : Bool) : QueueState :=
  let noted := state.note (.boundary finished suppress)
  if suppress then noted else noted.maybeScheduleMaintenance finished

def boundaries (suppress : Bool) : List Job → QueueState → QueueState
  | [], state => state
  | job :: rest, state => boundaries suppress rest (state.boundary job suppress)

def flushTagsDirtyMarks : QueueState :=
  { state with
    pendingMarks := []
    effects := state.effects ++ state.pendingMarks.map .markTagsDirty }

def nextBatchSetter : List Job → Option Text
  | [] => none
  | job :: rest =>
      match job.jobType with
      | .dbMaintenance => nextBatchSetter rest
      | .dataExtraction => job.metadata
      | _ => none

def unreportedBatchLoad (job : Job) : Option Text :=
  if job.jobType ≠ .dataExtraction then none else job.metadata

def recordUnreportedBatchLoad (job : Job) : QueueState :=
  match unreportedBatchLoad job with
  | some setter => { state with batchLoaded := some setter }
  | none => state

def recordBatchLoad (job : Job) (success : Bool) : Option Text → QueueState
  | some setter => { state with batchLoaded := some setter }
  | none => if !success then state.recordUnreportedBatchLoad job else state

/-- The batch model stays loaded when the next extraction wants it. -/
def maybeUnloadBatchModel : QueueState :=
  if state.runningJob.isSome then state
  else
    match state.batchLoaded with
    | none => state
    | some loaded =>
        if nextBatchSetter state.queue = some loaded then state
        else
          { state with
            batchLoaded := none
            effects := state.effects ++ [.unloadBatchModel loaded] }

/-- Whether a job with the tag stands in the way of its database's requests. -/
def conflicts (dedup : BatchDedup) : Bool :=
  state.present.any fun job => job.tag = some dedup.tag && job.indexDb = dedup.indexDb

def skippedDbs : List BatchDedup → List String → List String
  | [], skipped => skipped
  | dedup :: rest, skipped =>
      if state.conflicts dedup && !skipped.contains dedup.indexDb then
        skippedDbs rest (skipped ++ [dedup.indexDb])
      else skippedDbs rest skipped

def isMaintenanceFor (indexDb : String) (job : Job) : Bool :=
  job.jobType = .dbMaintenance && job.indexDb = indexDb

def upgrade (job : Job) : Job := { job with metadata := some ChangeSummary.all.toMetadata }

/-- The first queued maintenance job of a database gets every flag. -/
def upgradeFirst (indexDb : String) : List Job → List Job
  | [] => []
  | job :: rest =>
      if isMaintenanceFor indexDb job then upgrade job :: rest
      else job :: upgradeFirst indexDb rest

/-- The index by id follows an upgrade. -/
def upgradeQueued (job : Job) : QueueState :=
  match state.queuedJobs.lookup job.queueId with
  | none => state
  | some queued =>
      { state with
        queuedJobs := state.queuedJobs.insert job.queueId
          { queued with metadata := some ChangeSummary.all.toMetadata } }

/-- What a pass over the ids to cancel finds. -/
structure Cancelling where
  runningTarget : Option Int
  cancelled : List Int
  removed : List Job

/-- Queued jobs are cancelled at once, and the running one is kept for later. -/
def cancelQueued : List Int → Cancelling → QueueState → QueueState × Cancelling
  | [], found, state => (state, found)
  | queueId :: rest, found, state =>
      if (state.runningJob.map (·.queueId)) = some queueId then
        cancelQueued rest { found with runningTarget := some queueId } state
      else
        match state.queuedJobs.lookup queueId with
        | none => cancelQueued rest found state
        | some job =>
            let removed := { state with
              queuedJobs := state.queuedJobs.erase queueId
              queue := state.queue.filter (·.queueId ≠ queueId) }
            cancelQueued rest
              { found with
                cancelled := found.cancelled ++ [job.queueId]
                removed := found.removed ++ [job] }
              (removed.recordOutcome job.queueId .cancelled none)

/-- The rest of a cancel once the runner has confirmed it, up to the next start. -/
def confirmCancel (running : Job) (suppress : Bool) : QueueState :=
  let outcome := { state with runningJob := none }.recordOutcome running.queueId .cancelled none
  let owed := (outcome.recordOwed running none).recordUnreportedBatchLoad running
  let scheduled := owed.boundary running suppress
  if scheduled.shuttingDown then scheduled else scheduled.maybeUnloadBatchModel

/-- A job the runner is done with, up to the next start. -/
def finishRunning (finished : Job) (result : JobRunResult) : QueueState :=
  let status := if result.success then JobOutcomeStatus.completed else .failed
  let outcome := { state.recordOutcome finished.queueId status result.error with runningJob := none }
  let owed := outcome.recordOwed finished result.summary
  let loaded := owed.recordBatchLoad finished result.success result.loadedModel
  (loaded.boundary finished false).maybeUnloadBatchModel

def recordReport (indexDb : String) (summary : ChangeSummary) : QueueState :=
  if (state.runningJob.map (·.jobType)) = some .dbMaintenance then state.note (.ignored indexDb)
  else state.mergeOwed indexDb summary .report

/-- Every queued job is dropped, and none is taken any more. -/
def shed : QueueState :=
  { state with
    shuttingDown := true
    queue := []
    queuedJobs := ∅
    log := state.log ++ state.queue.map .shed }

end QueueState

end Panoptikon.Jobs
