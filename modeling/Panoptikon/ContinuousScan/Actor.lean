import Panoptikon.Foundation.KeyedMap
import Mathlib.Data.List.MinMax
import Mathlib.Data.String.Basic

/-!
# The continuous scan actor

`ContinuousScanActor` of `jobs/continuous_scan.rs`, with the `file_scans` rows
of `db/file_scans.rs`. A message is handled against what the actor reads of the
world meanwhile: the stored configuration, the roots it yields, files, the
index. The calls of the index writer and the files handed to the workers are the
effects, in order; calls of the writer succeed.
-/

namespace Panoptikon.ContinuousScan

open Foundation

def continuousPathSentinel : String := "<continuous>"

structure FileScan where
  id : Nat
  startTime : String
  endTime : Option String
  path : String

/-- The `file_scans` table. An autoincremented id is never given twice. -/
structure FileScans where
  rows : List FileScan
  nextId : Nat
  distinct : (rows.map FileScan.id).Nodup
  fresh : ∀ row ∈ rows, row.id < nextId

namespace FileScans

/-- `add_file_scan`. -/
def add (table : FileScans) (startTime path : String) : FileScans where
  rows := table.rows ++ [⟨table.nextId, startTime, none, path⟩]
  nextId := table.nextId + 1
  distinct := by
    rw [List.map_append, List.nodup_append]
    refine ⟨table.distinct, List.nodup_singleton _, ?_⟩
    rintro id old new isNew rfl
    obtain ⟨row, member, rfl⟩ := List.mem_map.mp old
    have isNext : row.id = table.nextId := List.mem_singleton.mp isNew
    exact absurd (table.fresh row member) (by omega)
  fresh := by
    intro row member
    rcases List.mem_append.mp member with old | new
    · exact Nat.lt_succ_of_lt (table.fresh row old)
    · rw [List.mem_singleton.mp new]
      exact Nat.lt_succ_self _

/-- What `update_file_scan` and `close_file_scan` do with the end of a row. -/
def setEnd (table : FileScans) (scanId : Nat) (endTime : Option String) : FileScans where
  rows := table.rows.map fun row => if row.id = scanId then { row with endTime } else row
  nextId := table.nextId
  distinct := by
    have same : (table.rows.map fun row =>
        if row.id = scanId then { row with endTime } else row).map FileScan.id =
        table.rows.map FileScan.id := by
      rw [List.map_map]
      refine List.map_congr_left fun row _ => ?_
      dsimp only [Function.comp_apply]
      split <;> rfl
    rw [same]
    exact table.distinct
  fresh := by
    intro row member
    obtain ⟨old, inRows, rfl⟩ := List.mem_map.mp member
    split
    · exact table.fresh old inRows
    · exact table.fresh old inRows

def isOpen (row : FileScan) : Bool :=
  row.endTime.isNone && row.path = continuousPathSentinel

/-- `get_open_file_scan_id` of the sentinel: the open row that started last. -/
def openId (table : FileScans) : Option Nat :=
  ((table.rows.filter isOpen).argmax FileScan.startTime).map FileScan.id

/-- The open continuous rows. -/
def openIds (table : FileScans) : List Nat := (table.rows.filter isOpen).map FileScan.id

end FileScans

/-- The settings the actor reads itself. -/
structure ScanConfig where
  enabled : Bool
  pollIntervalSecs : Option Nat
  removeUnavailableFiles : Bool

/-- What `refresh_roots` derives from a configuration. -/
structure Roots where
  watchRoots : List String
  excludedRoots : List String
  allowedExtensions : List String
  valid : Bool

structure FileMeta where
  isFile : Bool
  modified : Option String
  len : Int

/-- What is read while one message is handled. A failed read has no result. -/
structure World where
  now : String
  loadedConfig : Option ScanConfig
  factoryBuilt : Bool
  rootsOf : ScanConfig → Roots
  connects : Bool
  watcherStarts : Bool
  exists_ : String → Bool
  metadata : String → Option FileMeta
  passesFilters : Roots → String → Bool
  /-- The item of a stored path, and the scan that saw the path last. -/
  deleteInfo : String → Option (Nat × Nat)
  filesOfItem : Nat → Option Nat
  /-- The writer's answers. -/
  filesDeleted : Nat
  itemDeleted : Bool
  renamed : Bool
  progressDue : Bool

inductive IndexWrite where
  | addFileScan
  | endFileScan (scanId : Nat)
  | progressFileScan (scanId : Nat)
  | renameFilePath (oldPath newPath : String) (scanId : Nat)
  | updateFileData (path : String) (scanId : Nat)
  | upsertScanError (path : String) (scanId : Option Nat)
  | upsertVisualAttempts (path : String) (scanId : Option Nat)
  | deleteScanError (path : String)
  | deleteFileByPath (path : String)
  | deleteItemIfOrphan (item : Nat)
  /-- Thumbnails, frames, blurhashes and verdicts, which are kept by content. -/
  | storeContent (path : String)
  | maintenance

/-- The id a path is written under. -/
def IndexWrite.underScan : IndexWrite → Option Nat
  | .renameFilePath _ _ scanId | .updateFileData _ scanId => some scanId
  | .upsertScanError _ scanId | .upsertVisualAttempts _ scanId => some (scanId.getD 0)
  | _ => none

inductive Effect where
  | write (request : IndexWrite) (openIds : List Nat)
  | dispatch (path : String) (epoch : Nat)

/-- A poller, with its snapshot unless a pass has it. -/
structure Poller where
  interval : Option Nat
  snapshot : Bool

structure ScanState where
  config : ScanConfig
  roots : Roots
  scanId : Option Nat
  scanTime : Option String
  epoch : Nat
  paused : Bool
  jobPauses : Nat
  watcher : Bool
  poller : Option Poller
  watcherFallback : Bool
  enableWatcher : Bool
  deletionsSinceMaintenance : Nat
  failedStats : KeyedMap String (String × Int)

/-- An actor at work: its state, its table, and what it did so far. -/
structure Scan where
  state : ScanState
  table : FileScans
  effects : List Effect

def maintenanceDeletionThreshold : Nat := 1000

def watcherFallbackPollInterval : Nat := 60

namespace Scan

def write (scan : Scan) (request : IndexWrite) : Scan :=
  { scan with effects := scan.effects ++ [.write request scan.table.openIds] }

def modify (scan : Scan) (change : ScanState → ScanState) : Scan :=
  { scan with state := change scan.state }

/-- The epoch is a word, and wraps. -/
def nextEpoch (scan : Scan) : Scan :=
  scan.modify fun state => { state with epoch := (state.epoch + 1) % 2 ^ 64 }

def stopWatching (scan : Scan) : Scan :=
  scan.modify fun state => { state with watcher := false, poller := none }

variable (world : World)

/-- The roots of the configuration, and whether they are valid. -/
def refreshRoots (scan : Scan) : Scan :=
  scan.modify fun state => { state with roots := world.rootsOf state.config }

def startScan (scan : Scan) : Scan :=
  let scanId := scan.table.nextId
  { scan.write .addFileScan with
    table := scan.table.add world.now continuousPathSentinel
    state := { scan.state with
      scanId := some scanId
      scanTime := some world.now
      failedStats := ∅ } }

def closeScan (scan : Scan) : Scan :=
  match scan.state.scanId with
  | none => scan
  | some scanId =>
      { scan.write (.endFileScan scanId) with
        table := scan.table.setEnd scanId (some world.now)
        state := { scan.state with scanId := none, scanTime := none } }

def closeStaleScan (scan : Scan) : Scan :=
  if world.connects then
    match scan.table.openId with
    | none => scan
    | some scanId =>
        { scan.write (.endFileScan scanId) with
          table := scan.table.setEnd scanId (some world.now) }
  else scan

/-- A progress row keeps the end unset. -/
def maybeReportProgress (scan : Scan) : Scan :=
  match scan.state.scanId with
  | none => scan
  | some scanId =>
      if world.progressDue then
        { scan.write (.progressFileScan scanId) with table := scan.table.setEnd scanId none }
      else scan

def startPoller (interval : Option Nat) (scan : Scan) : Scan :=
  if world.connects then scan.modify fun state => { state with poller := some ⟨interval, true⟩ }
  else scan

def startWatching (scan : Scan) : Scan :=
  let scan := scan.modify fun state =>
    { state with watcher := false, poller := none, watcherFallback := false }
  if scan.state.enableWatcher then
    match scan.state.config.pollIntervalSecs.filter (0 < ·) with
    | some secs => scan.startPoller world (some secs)
    | none =>
        if world.watcherStarts then
          (scan.modify fun state => { state with watcher := true }).startPoller world none
        else
          let scan := scan.startPoller world (some watcherFallbackPollInterval)
          scan.modify fun state => { state with watcherFallback := world.connects }
  else scan

def dispatchPath (path : String) (scan : Scan) : Scan :=
  if scan.state.paused then scan
  else if world.passesFilters scan.state.roots path = false then scan
  else
    match world.metadata path with
    | none => scan
    | some metadata =>
        if metadata.isFile = false then scan
        else
          let dispatched := { scan with effects := scan.effects ++ [.dispatch path scan.state.epoch] }
          match scan.state.failedStats.lookup path with
          | none => dispatched
          | some failed =>
              -- A file that failed in this session and has not moved since.
              if metadata.modified.map (fun mtime => (mtime, metadata.len)) = some failed then scan
              else dispatched.modify fun state =>
                { state with failedStats := state.failedStats.erase path }

/-- Another file has the item, or this session added the row. -/
def safeDelete (itemId scanId : Nat) (scan : Scan) : Bool :=
  scanId = scan.state.scanId.getD 0 || (world.filesOfItem itemId).any (1 < ·)

def deleteFile (path : String) (itemId : Nat) (scan : Scan) : Scan :=
  let scan := (scan.write (.deleteFileByPath path)).write (.deleteItemIfOrphan itemId)
  let deletions := scan.state.deletionsSinceMaintenance + world.filesDeleted +
    world.itemDeleted.toNat
  if maintenanceDeletionThreshold ≤ deletions then
    (scan.modify fun state => { state with deletionsSinceMaintenance := 0 }).write .maintenance
  else scan.modify fun state => { state with deletionsSinceMaintenance := deletions }

def handleRemove (path : String) (scan : Scan) : Scan :=
  if scan.state.paused then scan
  else if scan.state.config.removeUnavailableFiles = false then scan
  else if world.exists_ path then scan
  else if world.passesFilters scan.state.roots path = false then scan
  else if world.connects = false then scan
  else
    match world.deleteInfo path with
    | none => scan
    | some (itemId, scanId) =>
        if scan.safeDelete world itemId scanId then scan.deleteFile world path itemId else scan

def handleRename (oldPath newPath : String) (scan : Scan) : Scan :=
  if scan.state.paused then scan
  else if world.passesFilters scan.state.roots newPath = false then scan
  else if world.exists_ newPath = false then scan
  else
    match scan.state.scanId with
    | none => scan
    | some scanId =>
        if ((world.metadata newPath).bind FileMeta.modified).isNone then scan
        else
          let scan := scan.write (.renameFilePath oldPath newPath scanId)
          if world.renamed then scan else scan.dispatchPath world newPath

end Scan

inductive FsEvent where
  | create (path : String)
  | modify (path : String)
  | remove (path : String)
  | rename (oldPath newPath : String)
  | overflow

/-- A processed file: what its content owes the index beside the file's row. -/
structure Processed where
  /-- The rows are found and built. -/
  built : Bool
  content : Bool
  visualAttempts : Bool
  visualsScanError : Bool
  laterContent : Bool

inductive Outcome where
  | processed (file : Processed)
  | unchanged
  | knownBad
  /-- An error, and whether its class is one the ledger stores. -/
  | failed (filtered classified : Bool)

structure WorkerResult where
  epoch : Nat
  path : String
  stat : Option (String × Int)
  ledgerPath : Option String
  outcome : Outcome

inductive Message where
  | pause
  | resume
  | updateConfig (config : ScanConfig)
  | fsEvent (event : FsEvent)
  | pollTick (epoch : Nat)
  | pollCompleted (epoch : Nat)
  | settleCheck (epoch : Nat)
  | dispatchStable (epoch : Nat) (path : String)
  | workerResult (result : WorkerResult)
  | getStatus

/-- The messages that decide about the record. -/
def Message.isControl : Message → Bool
  | .pause | .resume | .updateConfig _ => true
  | _ => false

namespace Scan

variable (world : World)

def handlePause (scan : Scan) : Scan :=
  let scan := scan.modify fun state =>
    { state with paused := true, jobPauses := (state.jobPauses + 1) % 2 ^ 32 }
  scan.nextEpoch.stopWatching.closeScan world

def handleResume (scan : Scan) : Scan :=
  let scan := scan.modify fun state => { state with jobPauses := state.jobPauses - 1 }
  if 0 < scan.state.jobPauses then scan
  else
    match world.loadedConfig with
    | none => scan
    | some config =>
        let scan := (scan.modify fun state => { state with config }).refreshRoots world
        if scan.state.config.enabled = false ∨ scan.state.roots.valid = false then
          let scan := (scan.modify fun state => { state with paused := true }).stopWatching
          if scan.state.roots.valid = false then scan.nextEpoch.closeScan world else scan
        else
          let scan := (scan.modify fun state => { state with paused := false }).nextEpoch
          (scan.startScan world).startWatching world

def handleUpdateConfig (config : ScanConfig) (scan : Scan) : Scan :=
  let wasEnabled := scan.state.config.enabled
  let previous := scan.state
  let scan := (scan.modify fun state => { state with config }).refreshRoots world
  if config.enabled = false ∨ scan.state.roots.valid = false then
    let scan := scan.modify fun state => { state with paused := true }
    if scan.state.poller.isSome ∨ scan.state.watcher = true ∨ scan.state.scanId.isSome then
      scan.nextEpoch.stopWatching.closeScan world
    else scan
  else if scan.state.jobPauses = 0 then
    let scanRelevantChanged : Bool := !wasEnabled ||
      scan.state.roots.watchRoots ≠ previous.roots.watchRoots ||
      scan.state.roots.excludedRoots ≠ previous.roots.excludedRoots ||
      scan.state.roots.allowedExtensions ≠ previous.roots.allowedExtensions ||
      config.pollIntervalSecs ≠ previous.config.pollIntervalSecs
    if scanRelevantChanged || scan.state.paused ||
        (scan.state.enableWatcher && scan.state.poller.isNone) then
      let scan := (scan.modify fun state => { state with paused := false }).nextEpoch
      let scan := if wasEnabled then scan else scan.startScan world
      scan.startWatching world
    else scan
  else scan

def handleFsEvent (event : FsEvent) (scan : Scan) : Scan :=
  if scan.state.paused then scan
  else
    match event with
    | .create path => scan.dispatchPath world path
    | .modify path => scan.dispatchPath world path
    | .remove path => scan.handleRemove world path
    | .rename oldPath newPath => scan.handleRename world oldPath newPath
    | .overflow => scan

def recordFileFailure (path : String) (stat : Option (String × Int)) (filtered classified : Bool)
    (scan : Scan) : Scan :=
  if filtered then scan
  else
    match stat with
    | none => scan
    | some seen =>
        if classified then
          (scan.modify fun state =>
            { state with failedStats := state.failedStats.insert path seen }).write
            (.upsertScanError path scan.state.scanId)
        else scan

def clearFileFailure (ledgerPath : Option String) (scan : Scan) : Scan :=
  match ledgerPath with
  | none => scan
  | some stored => scan.write (.deleteScanError stored)

def writeIf (condition : Bool) (request : IndexWrite) (scan : Scan) : Scan :=
  if condition then scan.write request else scan

def handleProcessed (result : WorkerResult) (file : Processed) (scan : Scan) : Scan :=
  if world.connects && file.built then
    let scanId := scan.state.scanId
    let scan := scan.writeIf file.content (.storeContent result.path)
    let scan := scan.writeIf file.visualAttempts (.upsertVisualAttempts result.path scanId)
    let scan := scan.write (.updateFileData result.path (scanId.getD 0))
    let scan := scan.modify fun state =>
      { state with failedStats := state.failedStats.erase result.path }
    let scan := scan.clearFileFailure result.ledgerPath
    let scan := scan.writeIf file.visualsScanError (.upsertScanError result.path scanId)
    let scan := scan.writeIf file.laterContent (.storeContent result.path)
    scan.maybeReportProgress world
  else scan

def handleWorkerResult (result : WorkerResult) (scan : Scan) : Scan :=
  if scan.state.paused ∨ result.epoch ≠ scan.state.epoch then scan
  else
    match result.outcome with
    | .unchanged => scan.maybeReportProgress world
    | .knownBad => scan.maybeReportProgress world
    | .failed filtered classified =>
        (scan.recordFileFailure result.path result.stat filtered classified).maybeReportProgress
          world
    | .processed file => scan.handleProcessed world result file

def handle (scan : Scan) : Message → Scan
  | .pause => scan.handlePause world
  | .resume => scan.handleResume world
  | .updateConfig config => scan.handleUpdateConfig world config
  | .fsEvent event => scan.handleFsEvent world event
  | .pollTick epoch =>
      if scan.state.paused ∨ epoch ≠ scan.state.epoch then scan
      else scan.modify fun state =>
        { state with poller := state.poller.map fun poller => { poller with snapshot := false } }
  | .pollCompleted epoch =>
      if epoch ≠ scan.state.epoch then scan
      else scan.modify fun state =>
        { state with poller := state.poller.map fun poller => { poller with snapshot := true } }
  | .settleCheck _ => scan
  | .dispatchStable epoch path =>
      if scan.state.paused ∨ epoch ≠ scan.state.epoch then scan else scan.dispatchPath world path
  | .workerResult result => scan.handleWorkerResult world result
  | .getStatus => scan

def postStop (scan : Scan) : Scan :=
  (scan.closeScan world).modify fun state => { state with watcher := false }

/-- A new actor, unless its configuration or its workers fail. -/
def preStart (enableWatcher : Bool) (table : FileScans) : Option Scan :=
  match world.loadedConfig with
  | none => none
  | some config =>
      if world.factoryBuilt then
        let scan : Scan := {
          state := {
            config, roots := world.rootsOf config, scanId := none, scanTime := none, epoch := 0
            paused := false, jobPauses := 0, watcher := false, poller := none
            watcherFallback := false, enableWatcher, deletionsSinceMaintenance := 0
            failedStats := ∅ }
          table, effects := [] }
        let scan := scan.closeStaleScan world
        if config.enabled && scan.state.roots.valid then
          some ((scan.startScan world).startWatching world)
        else some (scan.modify fun state => { state with paused := true })
      else none

end Scan

end Panoptikon.ContinuousScan
