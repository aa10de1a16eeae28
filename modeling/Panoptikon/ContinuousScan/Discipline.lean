import Panoptikon.ContinuousScan.Records

/-!
# Record discipline over runs

Actors are started and stopped, one at a time, and handle messages in between.
The open rows are in order in every state of a run exactly when no resume finds
the actor at work and no configuration sets an enabled actor to work again.
-/

namespace Panoptikon.ContinuousScan

open Foundation

/-- The actor of a database, if it runs, its table, and all effects so far. -/
structure ScanSystem where
  actor : Option ScanState
  table : FileScans
  effects : List Effect

inductive ScanOp where
  | preStart (world : World) (enableWatcher : Bool)
  | message (world : World) (message : Message)
  | stop (world : World)
  /-- A scan that is not continuous. -/
  | folderScan (startTime path : String) (other : path ≠ continuousPathSentinel)

variable {world : World} {scan : Scan} {table : FileScans}

namespace ScanSystem

def ofScan (scan : Scan) : ScanSystem := ⟨some scan.state, scan.table, scan.effects⟩

/-- A second actor of one name is not started. -/
def preStart (system : ScanSystem) (world : World) (enableWatcher : Bool) : ScanSystem :=
  match system.actor with
  | some _ => system
  | none =>
      match Scan.preStart world enableWatcher system.table with
      | none => system
      | some scan => { ofScan scan with effects := system.effects ++ scan.effects }

def step (system : ScanSystem) : ScanOp → ScanSystem
  | .preStart world enableWatcher => system.preStart world enableWatcher
  | .message world message =>
      match system.actor with
      | none => system
      | some state => ofScan ((Scan.mk state system.table system.effects).handle world message)
  | .stop world =>
      match system.actor with
      | none => system
      | some state =>
          { ofScan ((Scan.mk state system.table system.effects).postStop world) with actor := none }
  | .folderScan startTime path _ => { system with table := system.table.add startTime path }

/-- What the records owe a state. -/
structure Disciplined (system : ScanSystem) : Prop where
  working : ∀ state, system.actor = some state → state.paused = false →
    state.config.enabled = true → state.roots.valid = true →
    ∃ scanId, state.scanId = some scanId ∧ scanId ∈ system.table.openIds
  resting : (∀ state, system.actor = some state →
    state.paused = true ∨ state.config.enabled = false) → system.table.openIds = []
  single : system.table.openIds.length ≤ 1
  /-- Every path was written under the row open at that time. -/
  recorded : AllRecorded system.effects

/-- The invariant of disciplined runs. -/
def InOrder (system : ScanSystem) : Prop :=
  match system.actor with
  | none => system.table.openIds = [] ∧ AllRecorded system.effects
  | some state => (Scan.mk state system.table system.effects).InOrder

def Admitted (system : ScanSystem) : ScanOp → Prop
  | .message world .resume => ∀ state, system.actor = some state → ¬Scan.ResumesAtWork world state
  | .message world (.updateConfig config) =>
      ∀ state, system.actor = some state → ¬Scan.RestartsWithoutRow world config state
  | _ => True

variable {system : ScanSystem}

theorem InOrder.disciplined (inOrder : system.InOrder) : system.Disciplined := by
  unfold InOrder at inOrder
  cases isActor : system.actor with
  | none =>
    rw [isActor] at inOrder
    obtain ⟨quiet, recorded⟩ := inOrder
    refine ⟨fun state isState => ?_, fun _ => quiet, by simp [quiet], recorded⟩
    rw [isActor] at isState
    cases isState
  | some state =>
    rw [isActor] at inOrder
    cases inOrder with
    | working scanId unpaused enabled valid isId isOpen recorded =>
      change system.table.openIds = [scanId] at isOpen
      refine ⟨fun other isOther _ _ _ => ?_, fun resting => ?_, by simp [isOpen], recorded⟩
      · rw [isActor] at isOther
        cases isOther
        exact ⟨scanId, isId, by simp [isOpen]⟩
      · rcases resting state isActor with paused | disabled
        · exact absurd (paused.symm.trans unpaused) (by decide)
        · exact absurd (disabled.symm.trans enabled) (by decide)
    | resting paused noId quiet recorded =>
      change system.table.openIds = [] at quiet
      refine ⟨fun other isOther unpaused => ?_, fun _ => quiet, by simp [quiet], recorded⟩
      rw [isActor] at isOther
      cases isOther
      exact absurd (paused.symm.trans unpaused) (by decide)

/-- The open rows before an actor starts: one that was left open is closed, if the database can be read. -/
def Startable (world : World) (table : FileScans) : Prop :=
  table.openIds = [] ∨ world.connects = true ∧ ∃ scanId, table.openIds = [scanId]

theorem close_stale_spec (startable : Startable world scan.table)
    (recorded : AllRecorded scan.effects) : (scan.closeStaleScan world).state = scan.state ∧
      (scan.closeStaleScan world).table.openIds = [] ∧ AllRecorded (scan.closeStaleScan world).effects := by
  rw [Scan.closeStaleScan]
  rcases startable with quiet | ⟨connects, scanId, isOpen⟩
  · rw [FileScans.open_id_eq_none quiet]
    split <;> exact ⟨rfl, quiet, recorded⟩
  · rw [if_pos connects, FileScans.open_id_eq_some isOpen]
    refine ⟨rfl, ?_, all_recorded_append.mpr ⟨recorded, nofun⟩⟩
    rw [FileScans.open_ids_set_end, isOpen]
    simp

theorem pre_start_in_order {enableWatcher : Bool}
    (startable : Startable world table) (started : Scan.preStart world enableWatcher table = some scan) :
    scan.InOrder := by
  unfold Scan.preStart at started
  split at started
  · cases started
  · rename_i config _
    split at started
    · have closed {fresh : Scan} (isTable : fresh.table = table) (unwritten : fresh.effects = []) :=
        @close_stale_spec world fresh (isTable ▸ startable) fun _ member =>
          absurd (unwritten ▸ member) List.not_mem_nil
      dsimp only at started
      split at started
      · rename_i able
        rw [(closed rfl rfl).1, Bool.and_eq_true] at able
        cases started
        refine Scan.start_scan_in_order ?_ ?_ ?_ (closed rfl rfl).2.1 (closed rfl rfl).2.2
        all_goals rw [(closed rfl rfl).1]
        · exact able.1
        · exact able.2
      · cases started
        refine .resting rfl ?_ (closed rfl rfl).2.1 (closed rfl rfl).2.2
        change (Scan.closeStaleScan world _).state.scanId = none
        rw [(closed rfl rfl).1]
    · cases started

theorem all_recorded_join {first second : List Effect} (early : AllRecorded first)
    (late : AllRecorded second) : AllRecorded (first ++ second) := by
  intro effect member
  rcases List.mem_append.mp member with inFirst | inSecond
  · exact early effect inFirst
  · exact late effect inSecond

theorem step_in_order (inOrder : system.InOrder) {op : ScanOp} (admitted : system.Admitted op) :
    (system.step op).InOrder := by
  obtain ⟨actor, table, effects⟩ := system
  cases op with
  | preStart world enableWatcher =>
    cases actor with
    | some state => exact inOrder
    | none =>
      obtain ⟨quiet, recorded⟩ := inOrder
      unfold step preStart
      dsimp only
      split
      · exact ⟨quiet, recorded⟩
      · rename_i scan started
        have fresh := pre_start_in_order (.inl quiet) started
        have joined := all_recorded_join recorded fresh.recorded
        cases fresh with
        | working scanId unpaused enabled valid isId isOpen _ =>
          exact .working scanId unpaused enabled valid isId isOpen joined
        | resting paused noId quiet _ => exact .resting paused noId quiet joined
  | message world message =>
    cases actor with
    | none => exact inOrder
    | some state =>
      have plain := @Scan.handle_plain_in_order world ⟨state, table, effects⟩ message inOrder
      cases message with
      | pause => exact Scan.pause_in_order inOrder
      | resume => exact Scan.resume_in_order inOrder (admitted state rfl)
      | updateConfig config => exact Scan.update_config_in_order inOrder (admitted state rfl)
      | fsEvent | pollTick | pollCompleted | settleCheck | dispatchStable | workerResult
      | getStatus => exact plain rfl
  | stop world =>
    cases actor with
    | none => exact inOrder
    | some state =>
      have running : (Scan.mk state table effects).InOrder := inOrder
      obtain ⟨-, quiet, -, -, -, -, recorded⟩ :=
        @Scan.close_scan_spec world _ running.paired running.recorded
      exact ⟨quiet, recorded⟩
  | folderScan startTime path other =>
    have same := FileScans.open_ids_add_other table startTime other
    cases actor with
    | none => exact ⟨same.trans inOrder.1, inOrder.2⟩
    | some state =>
      cases inOrder with
      | working scanId unpaused enabled valid isId isOpen recorded =>
        exact .working scanId unpaused enabled valid isId (same.trans isOpen) recorded
      | resting paused noId quiet recorded =>
        exact .resting paused noId (same.trans quiet) recorded

/-- A resume of an actor at work opens a second row, or leaves the row open when
scanning has been disabled. -/
theorem resume_at_work_shows {state : ScanState}
    {effects : List Effect} (inOrder : (Scan.mk state table effects).InOrder)
    (atWork : Scan.ResumesAtWork world state) :
    ¬(ofScan ((Scan.mk state table effects).handleResume world)).Disciplined := by
  obtain ⟨unpaused, few, config, loaded, valid⟩ := atWork
  cases inOrder with
  | resting paused => exact absurd (paused.symm.trans unpaused) (by decide)
  | working scanId _ _ _ isId isOpen recorded =>
    change table.openIds = [scanId] at isOpen
    have last : ¬0 < state.jobPauses - 1 := by omega
    intro disciplined
    unfold Scan.handleResume at disciplined
    dsimp only at disciplined
    split at disciplined
    · rename_i more
      exact last more
    rw [loaded] at disciplined
    dsimp only at disciplined
    split at disciplined
    · split at disciplined
      · rename_i invalid
        exact absurd (valid.symm.trans invalid) (by decide)
      · have quiet := disciplined.resting fun other isOther => by
          cases isOther
          exact Or.inl rfl
        change table.openIds = [] at quiet
        rw [isOpen] at quiet
        cases quiet
    · have many := disciplined.single
      change (Scan.table _).openIds.length ≤ 1 at many
      rw [Scan.start_open_ids] at many
      change (table.openIds ++ [table.nextId]).length ≤ 1 at many
      rw [isOpen] at many
      exact absurd many (by simp)

/-- A configuration that sets an enabled actor to work leaves it without a row. -/
theorem restart_shows {config : ScanConfig} {state : ScanState}
    {effects : List Effect} (inOrder : (Scan.mk state table effects).InOrder)
    (restarts : Scan.RestartsWithoutRow world config state) :
    ¬(ofScan ((Scan.mk state table effects).handleUpdateConfig world config)).Disciplined := by
  obtain ⟨paused, noJob, wasEnabled, enabled, valid⟩ := restarts
  cases inOrder with
  | working _ unpaused => exact absurd (paused.symm.trans unpaused) (by decide)
  | resting _ noId quiet recorded =>
    intro disciplined
    unfold Scan.handleUpdateConfig at disciplined
    dsimp only at disciplined
    split at disciplined
    · rename_i unable
      rcases unable with disabled | invalid
      · exact absurd (enabled.symm.trans disabled) (by decide)
      · exact absurd (valid.symm.trans invalid) (by decide)
    split at disciplined
    swap
    · rename_i jobs
      exact jobs noJob
    split at disciplined
    swap
    · rename_i idle
      refine idle ?_
      change (_ || state.paused || _) = true
      rw [paused, Bool.or_true, Bool.true_or]
    have steady := Scan.start_watching_steady world
      ((((Scan.mk state table effects).modify fun state => { state with config }).refreshRoots
        world).modify fun state => { state with paused := false }).nextEpoch
    obtain ⟨scanId, isId, -⟩ := disciplined.working _ rfl steady.paused
      (by rw [steady.config]; exact enabled) (by rw [steady.roots]; exact valid)
    have none_ : _ = none := steady.scanId.trans noId
    rw [none_] at isId
    cases isId

theorem refused_shows (inOrder : system.InOrder) {op : ScanOp} (refused : ¬system.Admitted op) :
    ¬(system.step op).Disciplined := by
  obtain ⟨actor, table, effects⟩ := system
  cases op with
  | preStart | stop | folderScan => exact absurd trivial refused
  | message world message =>
    cases message with
    | pause | fsEvent | pollTick | pollCompleted | settleCheck | dispatchStable | workerResult
    | getStatus => exact absurd trivial refused
    | resume =>
      simp only [Admitted, not_forall, not_not] at refused
      obtain ⟨state, isState, atWork⟩ := refused
      cases isState
      exact resume_at_work_shows inOrder atWork
    | updateConfig config =>
      simp only [Admitted, not_forall, not_not] at refused
      obtain ⟨state, isState, restarts⟩ := refused
      cases isState
      exact restart_shows inOrder restarts

end ScanSystem

/-- A database whose actor was never started. -/
def scanMachine (table : FileScans) : Machine ScanSystem ScanOp where
  init := ⟨none, table, []⟩
  step := ScanSystem.step

/-- Every state of a run is disciplined exactly when the run has neither of the
two messages. -/
theorem run_disciplined_iff (table : FileScans) (quiet : table.openIds = []) (ops : List ScanOp) :
    (∀ before, before <+: ops → ((scanMachine table).run before).Disciplined) ↔
      (scanMachine table).AdmittedRun ScanSystem.Admitted ops :=
  (scanMachine table).prefixes_good_iff ScanSystem.InOrder ScanSystem.Disciplined
    ScanSystem.Admitted ⟨quiet, nofun⟩
    (fun _ inOrder => inOrder.disciplined)
    (fun _ _ admitted inOrder => ScanSystem.step_in_order inOrder admitted)
    (fun _ _ refused inOrder => ScanSystem.refused_shows inOrder refused) ops

/-- So is every state behind the start of an actor that finds a row left open. -/
theorem stale_run_disciplined_iff {enableWatcher : Bool}
    (startable : ScanSystem.Startable world table) (started : Scan.preStart world enableWatcher table = some scan)
    (ops : List ScanOp) :
    (∀ before, before <+: ops →
        ((scanMachine table).run (.preStart world enableWatcher :: before)).Disciplined) ↔
      (scanMachine table).AdmittedRun ScanSystem.Admitted (.preStart world enableWatcher :: ops) := by
  have inOrder : ((scanMachine table).init.step (.preStart world enableWatcher)).InOrder := by
    rw [ScanSystem.step, ScanSystem.preStart, scanMachine]
    dsimp only
    rw [started]
    exact ScanSystem.pre_start_in_order startable started
  have later := (scanMachine table).prefixes_good_from (fun _ => True) ScanSystem.InOrder ScanSystem.Disciplined
    ScanSystem.Admitted (fun _ inOrder => inOrder.disciplined)
    (fun _ _ _ admitted inOrder => ScanSystem.step_in_order inOrder admitted)
    (fun _ _ _ refused inOrder => ScanSystem.refused_shows inOrder refused) inOrder ops fun _ _ => trivial
  exact ⟨fun all => ⟨trivial, later.mp all⟩, fun admitted => later.mpr admitted.2⟩

def FileScans.empty : FileScans := ⟨[], 1, List.nodup_nil, nofun⟩

/-- Scanning is enabled, and the roots are valid or not. -/
def enabledWorld (valid : Bool) : World where
  now := "2026-01-01T00:00:00"
  loadedConfig := some ⟨true, none, false⟩
  factoryBuilt := true
  rootsOf := fun _ => ⟨["/m"], [], [], valid⟩
  connects := true
  watcherStarts := true
  exists_ := fun _ => true
  metadata := fun _ => none
  passesFilters := fun _ _ => true
  deleteInfo := fun _ => none
  filesOfItem := fun _ => none
  filesDeleted := 0
  itemDeleted := false
  renamed := true
  progressDue := false

/-- An actor that is paused for a job and resumed. -/
def pausedRun : List ScanOp :=
  [.preStart (enabledWorld true) true, .message (enabledWorld true) .pause,
    .message (enabledWorld true) .resume, .stop (enabledWorld true)]

theorem paused_run_disciplined : ((scanMachine FileScans.empty).run pausedRun).Disciplined := by
  refine (run_disciplined_iff FileScans.empty rfl pausedRun).mpr
    ⟨trivial, trivial, fun state isState atWork => ?_, trivial, trivial⟩ pausedRun (List.prefix_refl _)
  cases isState
  exact absurd atWork.1 (by decide)

/-- The roots were invalid when the actor started, and are valid when the next
configuration comes. The writer is then asked to store a file under the row 0,
which no table has. -/
def rootsRecoverRun : List ScanOp :=
  [.preStart (enabledWorld false) true,
    .message (enabledWorld true) (.updateConfig ⟨true, none, false⟩),
    .message (enabledWorld true)
      (.workerResult ⟨1, "/m/a.png", none, none, .processed ⟨true, false, false, false, false⟩⟩)]

/-- A resume without a pause. -/
def strayResumeRun : List ScanOp :=
  [.preStart (enabledWorld true) true, .message (enabledWorld true) .resume]

theorem runs_undisciplined :
    ((scanMachine FileScans.empty).run rootsRecoverRun).actor.map
      (fun state => (state.paused, state.config.enabled, state.roots.valid, state.scanId)) =
      some (false, true, true, none) ∧
    ((scanMachine FileScans.empty).run rootsRecoverRun).effects =
      [.write (.updateFileData "/m/a.png" 0) []] ∧
    ((scanMachine FileScans.empty).run strayResumeRun).table.openIds = [1, 2] ∧
    ¬∀ (table : FileScans), table.openIds = [] → ∀ ops : List ScanOp,
      ((scanMachine table).run ops).Disciplined := by
  have two : ((scanMachine FileScans.empty).run strayResumeRun).table.openIds = [1, 2] := by
    decide
  refine ⟨rfl, rfl, two, fun disciplined => ?_⟩
  have single := (disciplined FileScans.empty rfl strayResumeRun).single
  rw [two] at single
  exact absurd single (by decide)

end Panoptikon.ContinuousScan
