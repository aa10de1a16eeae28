import Panoptikon.ContinuousScan.Actor
import Panoptikon.Foundation.Machine

/-!
# The open scan record

An actor that works has one open row, which its writes name; an actor that does
not work has none. Every message keeps this, but a resume that finds the actor at
work, and a configuration that sets an enabled actor to work again.
-/

namespace Panoptikon.ContinuousScan

open Foundation

namespace FileScans

variable {table : FileScans} {scanId : Nat}

theorem open_ids_add (table : FileScans) (startTime : String) :
    (table.add startTime continuousPathSentinel).openIds = table.openIds ++ [table.nextId] := by
  simp [openIds, add, isOpen]

theorem open_ids_add_other (table : FileScans) (startTime : String) {path : String}
    (other : path ≠ continuousPathSentinel) : (table.add startTime path).openIds = table.openIds := by
  simp [openIds, add, isOpen, other]

theorem open_ids_set_end (table : FileScans) (scanId : Nat) (endTime : String) :
    (table.setEnd scanId (some endTime)).openIds = table.openIds.filter (· ≠ scanId) := by
  unfold openIds setEnd
  dsimp only
  induction table.rows with
  | nil => rfl
  | cons row rest ih =>
    have ended : ∀ id, isOpen ⟨id, row.startTime, some endTime, row.path⟩ = false := fun _ => rfl
    rw [List.map_cons, List.filter_cons, List.filter_cons]
    by_cases same : row.id = scanId
    · by_cases isOpenRow : isOpen row = true
      · simpa [same, isOpenRow, ended] using ih
      · simpa [same, isOpenRow, ended] using ih
    · by_cases isOpenRow : isOpen row = true
      · simpa [same, isOpenRow] using ih
      · simpa [same, isOpenRow] using ih

theorem open_ids_progress (isOpenId : scanId ∈ table.openIds) :
    (table.setEnd scanId none).openIds = table.openIds := by
  obtain ⟨row, inOpen, rfl⟩ := List.mem_map.mp isOpenId
  obtain ⟨member, isOpenRow⟩ := List.mem_filter.mp inOpen
  have unended : row.endTime = none := by
    simp only [isOpen, Bool.and_eq_true, Option.isNone_iff_eq_none] at isOpenRow
    exact isOpenRow.1
  have same : (table.setEnd row.id none).rows = table.rows := by
    refine (List.map_congr_left fun other inRows => ?_).trans (List.map_id _)
    split
    · rename_i isId
      rw [List.inj_on_of_nodup_map table.distinct inRows member isId, id, ← unended]
    · rfl
  rw [openIds, same, openIds]

theorem open_id_eq_some (isOpen : table.openIds = [scanId]) : table.openId = some scanId := by
  obtain ⟨row, isRow, rfl⟩ := List.map_eq_singleton_iff.mp isOpen
  rw [openId, isRow]
  rfl

theorem open_id_eq_none (quiet : table.openIds = []) : table.openId = none := by
  have none_ : table.rows.filter isOpen = [] := List.map_eq_nil_iff.mp quiet
  rw [openId, none_]
  rfl

end FileScans

/-- A path is written under the row open at the time. -/
def Effect.Recorded : Effect → Prop
  | .write request openIds => ∀ scanId, request.underScan = some scanId → openIds = [scanId]
  | .dispatch _ _ => True

def AllRecorded (effects : List Effect) : Prop := ∀ effect ∈ effects, effect.Recorded

theorem all_recorded_append {effects : List Effect} {effect : Effect} :
    AllRecorded (effects ++ [effect]) ↔ AllRecorded effects ∧ effect.Recorded := by
  simp only [AllRecorded, List.mem_append, List.mem_singleton, or_imp, forall_and, forall_eq]

/-- The row, and what decides about it, stay as they are; and if the row is the
open one, what is written goes under it. -/
structure Steady (before after : Scan) : Prop where
  config : after.state.config = before.state.config
  roots : after.state.roots = before.state.roots
  scanId : after.state.scanId = before.state.scanId
  paused : after.state.paused = before.state.paused
  jobPauses : after.state.jobPauses = before.state.jobPauses
  openIds : (∀ scanId, before.state.scanId = some scanId → scanId ∈ before.table.openIds) →
    after.table.openIds = before.table.openIds
  recorded : ∀ scanId, before.state.scanId = some scanId → before.table.openIds = [scanId] →
    AllRecorded before.effects → AllRecorded after.effects

namespace Steady

variable {before between after : Scan}

theorem refl (scan : Scan) : Steady scan scan :=
  ⟨rfl, rfl, rfl, rfl, rfl, fun _ => rfl, fun _ _ _ recorded => recorded⟩

theorem trans (first : Steady before between) (second : Steady between after) : Steady before after where
  config := second.config.trans first.config
  roots := second.roots.trans first.roots
  scanId := second.scanId.trans first.scanId
  paused := second.paused.trans first.paused
  jobPauses := second.jobPauses.trans first.jobPauses
  openIds := by
    intro inOpen
    have same := first.openIds inOpen
    refine (second.openIds fun scanId isId => ?_).trans same
    rw [same]
    exact inOpen scanId (first.scanId ▸ isId)
  recorded := by
    intro scanId isId isOpen recorded
    have same := first.openIds fun other isOther => by
      rw [isId] at isOther
      cases isOther
      simp [isOpen]
    exact second.recorded scanId (first.scanId.trans isId) (same.trans isOpen)
      (first.recorded scanId isId isOpen recorded)

end Steady

namespace Scan

variable {world : World} {scan : Scan}

theorem write_steady {request : IndexWrite} (under : ∀ scanId, request.underScan = some scanId →
    ∀ current, scan.state.scanId = some current → scanId = current) :
    Steady scan (scan.write request) where
  config := rfl
  roots := rfl
  scanId := rfl
  paused := rfl
  jobPauses := rfl
  openIds := fun _ => rfl
  recorded := by
    intro current isCurrent isOpen recorded
    refine all_recorded_append.mpr ⟨recorded, fun scanId isUnder => ?_⟩
    rw [under scanId isUnder current isCurrent]
    exact isOpen

theorem write_plain {request : IndexWrite} (plain : request.underScan = none) : Steady scan (scan.write request) :=
  write_steady fun scanId isUnder => by
    rw [plain] at isUnder
    cases isUnder

theorem write_current {request : IndexWrite} (current : request.underScan = some (scan.state.scanId.getD 0)) :
    Steady scan (scan.write request) :=
  write_steady fun scanId isUnder other isOther => by
    rw [current, isOther] at isUnder
    cases isUnder
    rfl

theorem write_if_steady {condition : Bool} {request : IndexWrite}
    (written : Steady scan (scan.write request)) : Steady scan (scan.writeIf condition request) := by
  unfold writeIf
  split
  · exact written
  · exact Steady.refl scan

theorem modify_steady (change : ScanState → ScanState) (config : (change scan.state).config = scan.state.config)
    (roots : (change scan.state).roots = scan.state.roots) (scanId : (change scan.state).scanId = scan.state.scanId)
    (paused : (change scan.state).paused = scan.state.paused)
    (jobPauses : (change scan.state).jobPauses = scan.state.jobPauses) : Steady scan (scan.modify change) :=
  ⟨config, roots, scanId, paused, jobPauses, fun _ => rfl, fun _ _ _ recorded => recorded⟩

theorem dispatch_steady (scan : Scan) (path : String) (epoch : Nat) :
    Steady scan { scan with effects := scan.effects ++ [.dispatch path epoch] } :=
  ⟨rfl, rfl, rfl, rfl, rfl, fun _ => rfl, fun _ _ _ recorded =>
    all_recorded_append.mpr ⟨recorded, trivial⟩⟩

theorem report_progress_steady (world : World) (scan : Scan) : Steady scan (scan.maybeReportProgress world) := by
  unfold maybeReportProgress
  split
  · exact Steady.refl scan
  · rename_i scanId isId
    split
    · refine ⟨rfl, rfl, rfl, rfl, rfl, fun inOpen => ?_, fun current isCurrent isOpen recorded => ?_⟩
      · exact FileScans.open_ids_progress (inOpen scanId isId)
      · exact (@write_plain scan (.progressFileScan scanId) rfl).recorded current isCurrent isOpen
          recorded
    · exact Steady.refl scan

theorem start_poller_steady (world : World) (interval : Option Nat) (scan : Scan) :
    Steady scan (scan.startPoller world interval) := by
  unfold startPoller
  split
  · exact modify_steady _ rfl rfl rfl rfl rfl
  · exact Steady.refl scan

theorem start_watching_steady (world : World) (scan : Scan) : Steady scan (scan.startWatching world) := by
  unfold startWatching
  have reset : Steady scan (scan.modify fun state =>
      { state with watcher := false, poller := none, watcherFallback := false }) :=
    modify_steady _ rfl rfl rfl rfl rfl
  refine reset.trans ?_
  dsimp only
  split
  · split
    · exact start_poller_steady world _ _
    · split
      · refine Steady.trans ?_ (start_poller_steady world none _)
        exact modify_steady _ rfl rfl rfl rfl rfl
      · refine (start_poller_steady world (some watcherFallbackPollInterval) _).trans ?_
        exact modify_steady _ rfl rfl rfl rfl rfl
  · exact Steady.refl _

theorem dispatch_path_steady (world : World) (path : String) (scan : Scan) :
    Steady scan (scan.dispatchPath world path) := by
  unfold dispatchPath
  have dispatched := dispatch_steady scan path scan.state.epoch
  split
  · exact Steady.refl scan
  split
  · exact Steady.refl scan
  split
  · exact Steady.refl scan
  split
  · exact Steady.refl scan
  dsimp only
  split
  · exact dispatched
  split
  · exact Steady.refl scan
  · exact dispatched.trans (modify_steady _ rfl rfl rfl rfl rfl)

theorem delete_file_steady (world : World) (path : String) (itemId : Nat) (scan : Scan) :
    Steady scan (scan.deleteFile world path itemId) := by
  have deleted : Steady scan
      ((scan.write (.deleteFileByPath path)).write (.deleteItemIfOrphan itemId)) :=
    (write_plain rfl).trans (write_plain rfl)
  unfold deleteFile
  refine deleted.trans ?_
  dsimp only
  split
  · refine Steady.trans ?_ (write_plain rfl)
    exact modify_steady _ rfl rfl rfl rfl rfl
  · exact modify_steady _ rfl rfl rfl rfl rfl

theorem handle_remove_steady (world : World) (path : String) (scan : Scan) :
    Steady scan (scan.handleRemove world path) := by
  unfold handleRemove
  split
  · exact Steady.refl scan
  split
  · exact Steady.refl scan
  split
  · exact Steady.refl scan
  split
  · exact Steady.refl scan
  split
  · exact Steady.refl scan
  split
  · exact Steady.refl scan
  split
  · exact delete_file_steady world path _ scan
  · exact Steady.refl scan

theorem handle_rename_steady (world : World) (oldPath newPath : String) (scan : Scan) :
    Steady scan (scan.handleRename world oldPath newPath) := by
  unfold handleRename
  split
  · exact Steady.refl scan
  split
  · exact Steady.refl scan
  split
  · exact Steady.refl scan
  split
  · exact Steady.refl scan
  · rename_i scanId isId
    split
    · exact Steady.refl scan
    · have renamed : Steady scan (scan.write (.renameFilePath oldPath newPath scanId)) :=
        write_current (by rw [isId]; rfl)
      dsimp only
      split
      · exact renamed
      · exact renamed.trans (dispatch_path_steady world newPath _)

theorem handle_fs_event_steady (world : World) (event : FsEvent) (scan : Scan) :
    Steady scan (scan.handleFsEvent world event) := by
  unfold handleFsEvent
  split
  · exact Steady.refl scan
  · cases event with
    | create path => exact dispatch_path_steady world path scan
    | modify path => exact dispatch_path_steady world path scan
    | remove path => exact handle_remove_steady world path scan
    | rename oldPath newPath => exact handle_rename_steady world oldPath newPath scan
    | overflow => exact Steady.refl scan

theorem clear_file_failure_steady (ledgerPath : Option String) (scan : Scan) :
    Steady scan (scan.clearFileFailure ledgerPath) := by
  unfold clearFileFailure
  split
  · exact Steady.refl scan
  · exact write_plain rfl

theorem handle_processed_steady (world : World) (result : WorkerResult) (file : Processed)
    (scan : Scan) : Steady scan (scan.handleProcessed world result file) := by
  unfold handleProcessed
  split
  · dsimp only
    refine Steady.trans ?_ (report_progress_steady world _)
    refine Steady.trans ?_ (write_if_steady (write_plain rfl))
    have content : Steady scan (scan.writeIf file.content (.storeContent result.path)) :=
      write_if_steady (write_plain rfl)
    have attempts := content.trans (@write_if_steady _ file.visualAttempts
      (.upsertVisualAttempts result.path scan.state.scanId)
      (write_current (by rw [content.scanId]; rfl)))
    have updated := attempts.trans (@write_current _
      (.updateFileData result.path (scan.state.scanId.getD 0)) (by rw [attempts.scanId]; rfl))
    have erased := updated.trans (@modify_steady _ (fun state =>
      { state with failedStats := state.failedStats.erase result.path }) rfl rfl rfl rfl rfl)
    have cleared := erased.trans (clear_file_failure_steady result.ledgerPath _)
    exact cleared.trans (write_if_steady (write_current (by rw [cleared.scanId]; rfl)))
  · exact Steady.refl scan

theorem handle_worker_result_steady (world : World) (result : WorkerResult) (scan : Scan) :
    Steady scan (scan.handleWorkerResult world result) := by
  unfold handleWorkerResult
  split
  · exact Steady.refl scan
  · split
    · exact report_progress_steady world scan
    · exact report_progress_steady world scan
    · refine Steady.trans ?_ (report_progress_steady world _)
      unfold recordFileFailure
      split
      · exact Steady.refl scan
      split
      · exact Steady.refl scan
      split
      · refine Steady.trans ?_ (write_current rfl)
        exact modify_steady _ rfl rfl rfl rfl rfl
      · exact Steady.refl scan
    · exact handle_processed_steady world result _ scan

variable {message : Message}

theorem handle_paused (paused : scan.state.paused = true) (plain : message.isControl = false) :
    Steady scan (scan.handle world message) ∧ (scan.handle world message).effects = scan.effects ∧
      (scan.handle world message).table = scan.table := by
  have unchanged : ∀ after, after = scan →
      Steady scan after ∧ after.effects = scan.effects ∧ after.table = scan.table := by
    rintro after rfl
    exact ⟨Steady.refl _, rfl, rfl⟩
  cases message with
  | pause | resume | updateConfig => cases plain
  | fsEvent event => exact unchanged _ (if_pos paused)
  | pollTick epoch => exact unchanged _ (if_pos (Or.inl paused))
  | pollCompleted epoch =>
    unfold handle
    dsimp only
    split
    · exact unchanged _ rfl
    · exact ⟨modify_steady _ rfl rfl rfl rfl rfl, rfl, rfl⟩
  | settleCheck epoch => exact unchanged _ rfl
  | dispatchStable | workerResult => exact unchanged _ (if_pos (Or.inl paused))
  | getStatus => exact unchanged _ rfl

theorem handle_steady (world : World) (scan : Scan)
    (plain : message.isControl = false) : Steady scan (scan.handle world message) := by
  cases message with
  | pause | resume | updateConfig => cases plain
  | fsEvent event => exact handle_fs_event_steady world event scan
  | pollTick | pollCompleted =>
    unfold handle
    dsimp only
    split
    · exact Steady.refl scan
    · exact modify_steady _ rfl rfl rfl rfl rfl
  | settleCheck epoch => exact Steady.refl scan
  | dispatchStable epoch path =>
    unfold handle
    dsimp only
    split
    · exact Steady.refl scan
    · exact dispatch_path_steady world path scan
  | workerResult result => exact handle_worker_result_steady world result scan
  | getStatus => exact Steady.refl scan

/-- The state knows the open row, if there is one. -/
def Paired (scan : Scan) : Prop := scan.table.openIds = scan.state.scanId.toList

theorem close_scan_spec (paired : scan.Paired) (recorded : AllRecorded scan.effects) :
    (scan.closeScan world).state.scanId = none ∧ (scan.closeScan world).table.openIds = [] ∧
    (scan.closeScan world).state.config = scan.state.config ∧
    (scan.closeScan world).state.roots = scan.state.roots ∧
    (scan.closeScan world).state.paused = scan.state.paused ∧
    (scan.closeScan world).state.jobPauses = scan.state.jobPauses ∧ AllRecorded (scan.closeScan world).effects := by
  unfold Paired at paired
  unfold closeScan
  split
  · rename_i none_
    rw [none_] at paired
    exact ⟨none_, paired, rfl, rfl, rfl, rfl, recorded⟩
  · rename_i scanId isId
    rw [isId] at paired
    refine ⟨rfl, ?_, rfl, rfl, rfl, rfl,
      all_recorded_append.mpr ⟨recorded, fun _ none_ => by cases none_⟩⟩
    rw [FileScans.open_ids_set_end, paired]
    simp

theorem start_scan_spec (quiet : scan.table.openIds = []) (recorded : AllRecorded scan.effects) :
    (scan.startScan world).table.openIds = [scan.table.nextId] ∧ AllRecorded (scan.startScan world).effects := by
  refine ⟨?_, all_recorded_append.mpr ⟨recorded, fun _ none_ => by cases none_⟩⟩
  change (scan.table.add world.now continuousPathSentinel).openIds = _
  rw [FileScans.open_ids_add, quiet]
  rfl

theorem start_open_ids (world : World) (before : Scan) :
    ((before.startScan world).startWatching world).table.openIds =
      before.table.openIds ++ [before.table.nextId] := by
  have opened : (before.startScan world).table.openIds =
      before.table.openIds ++ [before.table.nextId] :=
    FileScans.open_ids_add before.table world.now
  rw [(start_watching_steady world (before.startScan world)).openIds fun scanId isId => ?_, opened]
  have isNext : before.table.nextId = scanId := Option.some.inj isId
  rw [opened, isNext]
  simp

/-- At work on the open row, or at rest without one. -/
inductive InOrder (scan : Scan) : Prop where
  | working (scanId : Nat) (unpaused : scan.state.paused = false)
      (enabled : scan.state.config.enabled = true) (valid : scan.state.roots.valid = true)
      (isId : scan.state.scanId = some scanId) (isOpen : scan.table.openIds = [scanId])
      (recorded : AllRecorded scan.effects)
  | resting (paused : scan.state.paused = true) (noId : scan.state.scanId = none)
      (quiet : scan.table.openIds = []) (recorded : AllRecorded scan.effects)

section

variable (inOrder : scan.InOrder)

include inOrder

theorem InOrder.paired : scan.Paired := by
  unfold Paired
  cases inOrder with
  | working scanId _ _ _ isId isOpen => rw [isId, isOpen, Option.toList_some]
  | resting _ noId quiet => rw [noId, quiet, Option.toList_none]

theorem InOrder.recorded : AllRecorded scan.effects := by
  cases inOrder with
  | working _ _ _ _ _ _ recorded => exact recorded
  | resting _ _ _ recorded => exact recorded

theorem InOrder.steady {after : Scan} (steady : Steady scan after)
    (silent : scan.state.paused = true → after.effects = scan.effects ∧ after.table = scan.table) :
    after.InOrder := by
  cases inOrder with
  | working scanId unpaused enabled valid isId isOpen recorded =>
    refine .working scanId (steady.paused.trans unpaused) (by rw [steady.config, enabled])
      (by rw [steady.roots, valid]) (steady.scanId.trans isId) ?_
      (steady.recorded scanId isId isOpen recorded)
    rw [steady.openIds fun other isOther => ?_, isOpen]
    rw [isId] at isOther
    cases isOther
    simp [isOpen]
  | resting paused noId quiet recorded =>
    obtain ⟨sameEffects, sameTable⟩ := silent paused
    exact .resting (steady.paused.trans paused) (steady.scanId.trans noId)
      (by rw [sameTable, quiet]) (by rw [sameEffects]; exact recorded)

theorem handle_plain_in_order (plain : message.isControl = false) : (scan.handle world message).InOrder :=
  inOrder.steady (handle_steady world scan plain) fun paused => (handle_paused paused plain).2

end

theorem close_scan_in_order {before : Scan} (paused : before.state.paused = true)
    (paired : before.Paired) (recorded : AllRecorded before.effects) : (before.closeScan world).InOrder := by
  obtain ⟨noId, quiet, -, -, samePause, -, written⟩ := @close_scan_spec world before paired recorded
  exact .resting (samePause.trans paused) noId quiet written

theorem start_scan_in_order {before : Scan} (unpaused : before.state.paused = false)
    (enabled : before.state.config.enabled = true) (valid : before.state.roots.valid = true)
    (quiet : before.table.openIds = []) (recorded : AllRecorded before.effects) :
    ((before.startScan world).startWatching world).InOrder := by
  obtain ⟨isOpen, written⟩ := @start_scan_spec world before quiet recorded
  refine InOrder.steady (@InOrder.working (before.startScan world) before.table.nextId unpaused
    enabled valid rfl isOpen written) (start_watching_steady world _) fun paused => ?_
  exact absurd (paused.symm.trans unpaused) (by decide)

theorem pause_in_order (inOrder : scan.InOrder) : (scan.handlePause world).InOrder :=
  close_scan_in_order rfl inOrder.paired inOrder.recorded

/-- The states in which a resume would open a second row, or leave one open. -/
def ResumesAtWork (world : World) (state : ScanState) : Prop :=
  state.paused = false ∧ state.jobPauses ≤ 1 ∧
    ∃ config, world.loadedConfig = some config ∧ (world.rootsOf config).valid = true

theorem resume_in_order (inOrder : scan.InOrder) (admitted : ¬ResumesAtWork world scan.state) :
    (scan.handleResume world).InOrder := by
  have unchanged : ∀ {after : Scan}, after.state.paused = scan.state.paused →
      after.state.config = scan.state.config → after.state.roots = scan.state.roots →
      after.state.scanId = scan.state.scanId → after.table = scan.table →
      after.effects = scan.effects → after.InOrder := by
    intro after paused config roots scanId table effects
    cases inOrder with
    | working id unpaused enabled valid isId isOpen recorded =>
      exact .working id (paused.trans unpaused) (by rw [config, enabled]) (by rw [roots, valid])
        (scanId.trans isId) (by rw [table, isOpen]) (by rw [effects]; exact recorded)
    | resting isPaused noId quiet recorded =>
      exact .resting (paused.trans isPaused) (scanId.trans noId) (by rw [table, quiet])
        (by rw [effects]; exact recorded)
  unfold handleResume
  dsimp only
  split
  · exact unchanged rfl rfl rfl rfl rfl rfl
  · rename_i last
    split
    · exact unchanged rfl rfl rfl rfl rfl rfl
    · rename_i config loaded
      have few : scan.state.jobPauses ≤ 1 := by
        change ¬0 < scan.state.jobPauses - 1 at last
        omega
      have atRest : (world.rootsOf config).valid = true → scan.state.paused = true := by
        intro valid
        by_contra working
        exact admitted ⟨by simpa using working, few, config, loaded, valid⟩
      split
      · split
        · exact close_scan_in_order rfl inOrder.paired inOrder.recorded
        · rename_i valid
          have resting := atRest ((Bool.not_eq_false _).mp valid)
          cases inOrder with
          | working _ unpaused => rw [unpaused] at resting; cases resting
          | resting _ noId quiet recorded => exact .resting rfl noId quiet recorded
      · rename_i able
        rw [not_or] at able
        have valid : (world.rootsOf config).valid = true := (Bool.not_eq_false _).mp able.2
        have enabled : config.enabled = true := (Bool.not_eq_false _).mp able.1
        have resting := atRest valid
        cases inOrder with
        | working _ unpaused => rw [unpaused] at resting; cases resting
        | resting _ _ quiet recorded =>
          exact start_scan_in_order rfl enabled valid quiet recorded

/-- The states in which a configuration would set the actor to work without a
row. -/
def RestartsWithoutRow (world : World) (config : ScanConfig) (state : ScanState) : Prop :=
  state.paused = true ∧ state.jobPauses = 0 ∧ state.config.enabled = true ∧
    config.enabled = true ∧ (world.rootsOf config).valid = true

theorem update_config_in_order (inOrder : scan.InOrder) {config : ScanConfig}
    (admitted : ¬RestartsWithoutRow world config scan.state) : (scan.handleUpdateConfig world config).InOrder := by
  unfold handleUpdateConfig
  dsimp only
  split
  · split
    · exact close_scan_in_order rfl inOrder.paired inOrder.recorded
    · rename_i inactive
      rw [not_or, not_or] at inactive
      have noId : scan.state.scanId = none := Option.not_isSome_iff_eq_none.mp inactive.2.2
      have quiet : scan.table.openIds = [] := by
        rw [show scan.table.openIds = scan.state.scanId.toList from inOrder.paired, noId]
        rfl
      exact .resting rfl noId quiet inOrder.recorded
  · rename_i able
    rw [not_or] at able
    have valid : (world.rootsOf config).valid = true := (Bool.not_eq_false _).mp able.2
    have enabled : config.enabled = true := (Bool.not_eq_false _).mp able.1
    split
    · rename_i noJob
      have kept : scan.state.paused = false → ∀ {after : Scan}, after.state.paused = false →
          after.state.config = config → after.state.roots = world.rootsOf config →
          after.state.scanId = scan.state.scanId → after.table = scan.table →
          after.effects = scan.effects → after.InOrder := by
        intro unpaused after isPaused isConfig isRoots scanId table effects
        cases inOrder with
        | working id _ _ _ isId isOpen recorded =>
          exact .working id isPaused (by rw [isConfig, enabled]) (by rw [isRoots, valid])
            (scanId.trans isId) (by rw [table, isOpen]) (by rw [effects]; exact recorded)
        | resting paused => rw [unpaused] at paused; cases paused
      split
      · split
        · rename_i wasEnabled
          have unpaused : scan.state.paused = false := by
            by_contra paused
            exact admitted ⟨by simpa using paused, noJob, wasEnabled, enabled, valid⟩
          refine InOrder.steady ?_ (start_watching_steady world _) fun paused => ?_
          · exact kept unpaused rfl rfl rfl rfl rfl rfl
          · cases paused
        · rename_i wasDisabled
          cases inOrder with
          | working _ _ wasEnabled => exact absurd wasEnabled wasDisabled
          | resting _ _ quiet recorded =>
            exact start_scan_in_order rfl enabled valid quiet recorded
      · rename_i idle
        have unpaused : scan.state.paused = false := by
          by_contra paused
          have isPaused : scan.state.paused = true := by simpa using paused
          refine idle ?_
          change (_ || scan.state.paused || _) = true
          rw [isPaused, Bool.or_true, Bool.true_or]
        exact kept unpaused unpaused rfl rfl rfl rfl rfl
    · rename_i jobs
      cases inOrder with
      | working id unpaused _ _ isId isOpen recorded =>
        exact .working id unpaused enabled valid isId isOpen recorded
      | resting paused noId quiet recorded => exact .resting paused noId quiet recorded

end Scan

end Panoptikon.ContinuousScan
