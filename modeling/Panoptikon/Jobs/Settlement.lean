import Panoptikon.Jobs.Conservation
import Panoptikon.Jobs.Owed

/-!
# Owed maintenance is settled

Between two messages a database that is owed something still has a job that will end,
or its last boundary was suppressed, or a report came in since. With the books of
the queue this accounts for every flag and every maintenance job in every run.
-/

namespace Panoptikon.Jobs

open Foundation

def awaitsAfter (indexDb : String) (awaits : Bool) : QueueEntry → Bool
  | .boundary job suppressed => if job.indexDb = indexDb then suppressed else awaits
  | .owes owing _ .report => if owing = indexDb then true else awaits
  | .owes _ _ (.boundary _) | .appended _ _ _ _ | .upgraded _ | .outcome _ | .ignored _ | .shed _ =>
      awaits

/-- A report came in since the last boundary of the database, or that boundary was
suppressed. -/
def awaits (indexDb : String) (log : List QueueEntry) : Bool :=
  log.foldl (awaitsAfter indexDb) false

@[simp] theorem awaits_append (indexDb : String) (log more : List QueueEntry) :
    awaits indexDb (log ++ more) = more.foldl (awaitsAfter indexDb) (awaits indexDb log) := by
  simp [awaits]

namespace QueueState

/-- What a database is owed waits for a job of its own, there or set aside by a
handler, or for the next boundary. -/
def SettledFor (indexDb : String) (aside : List Job) (state : QueueState) : Prop :=
  state.shuttingDown = false → (state.owed.lookup indexDb).isSome = true →
    awaits indexDb state.log = true ∨ ∃ job ∈ state.present ++ aside, job.indexDb = indexDb

def Settled (aside : List Job) (state : QueueState) : Prop :=
  ∀ indexDb, SettledFor indexDb aside state

variable {state next : QueueState} {aside others : List Job} {indexDb : String}

/-- Each job still has one of its database. -/
def Covered (jobs others : List Job) : Prop := ∀ job ∈ jobs, ∃ other ∈ others, other.indexDb = job.indexDb

theorem Covered.of_subset {jobs others : List Job} (subset : ∀ job ∈ jobs, job ∈ others) :
    Covered jobs others := fun job member => ⟨job, subset job member, rfl⟩

theorem SettledFor.carry (settled : SettledFor indexDb aside state)
    (shutting : next.shuttingDown = state.shuttingDown)
    (owed : next.owed.lookup indexDb = state.owed.lookup indexDb)
    (log : awaits indexDb next.log = awaits indexDb state.log)
    (jobs : Covered (state.present ++ aside) (next.present ++ others)) : SettledFor indexDb others next := by
  intro running isOwed
  rw [shutting] at running
  rw [owed] at isOwed
  rcases settled running isOwed with isAwaited | ⟨job, member, isDb⟩
  · exact .inl (log.trans isAwaited)
  · obtain ⟨other, isOther, sameDb⟩ := jobs job member
    exact .inr ⟨other, isOther, sameDb.trans isDb⟩

theorem SettledFor.of_none (none : next.owed.lookup indexDb = none) : SettledFor indexDb aside next := by
  intro _ isOwed
  rw [none] at isOwed
  cases isOwed

theorem SettledFor.of_present {job : Job} (member : job ∈ next.present ++ aside)
    (isDb : job.indexDb = indexDb) : SettledFor indexDb aside next :=
  fun _ _ => .inr ⟨job, member, isDb⟩

theorem Settled.carry (settled : Settled aside state)
    (shutting : next.shuttingDown = state.shuttingDown) (owed : next.owed = state.owed)
    (log : ∀ indexDb, awaits indexDb next.log = awaits indexDb state.log)
    (jobs : Covered (state.present ++ aside) (next.present ++ others)) : Settled others next :=
  fun indexDb => (settled indexDb).carry shutting (by rw [owed]) (log indexDb) jobs

theorem covered_append (state : QueueState) (aside : List Job) (request : JobRequest) :
    Covered (state.present ++ aside) ((state.append request).1.present ++ aside) := by
  refine .of_subset fun job member => ?_
  change job ∈ (state.runningJob.toList ++ (state.queue ++ _)) ++ aside
  rw [← List.append_assoc, List.append_assoc]
  rcases List.mem_append.mp member with isPresent | isAside
  · exact List.mem_append_left _ isPresent
  · exact List.mem_append_right _ (List.mem_append_right _ isAside)

theorem Settled.push_jobs (settled : Settled aside state) (requests : List JobRequest) :
    Settled aside (pushJobs requests state).1 := by
  induction requests generalizing state with
  | nil => exact settled
  | cons request rest ih =>
    have pushed : Settled aside (state.append request).1 :=
      settled.carry rfl rfl (fun _ => rfl) (covered_append state aside request)
    exact ih pushed

theorem settled_push_maintenance (state : QueueState) (userDataDb : String) (flags : ChangeSummary)
    (synthesized : Bool) (rest : ∀ other, other ≠ indexDb → SettledFor other aside state) :
    Settled aside (state.pushMaintenanceJob indexDb userDataDb flags synthesized).1 := by
  intro other
  by_cases same : other = indexDb
  · subst same
    have isThere : (⟨⟨.dbMaintenance, other, userDataDb, some flags.toMetadata, none, none, none, none⟩,
        state.jobCounter + 1⟩ : Job) ∈
        (state.pushMaintenanceJob other userDataDb flags synthesized).1.present :=
      List.mem_append_right _ (List.mem_append_right _ (List.mem_singleton_self _))
    exact .of_present (List.mem_append_left _ isThere) rfl
  · refine (rest other same).carry rfl rfl ?_ (covered_append state aside _)
    change awaits other (state.log ++ [_]) = _
    rw [awaits_append]
    rfl

theorem Settled.boundary {job : Job} (settled : Settled (job :: aside) state) (suppress : Bool) :
    Settled aside (state.boundary job suppress) := by
  have isAwaited (other : String) : awaits other (state.note (.boundary job suppress)).log =
      if job.indexDb = other then suppress else awaits other state.log := by
    change awaits other (state.log ++ [_]) = _
    rw [awaits_append]
    rfl
  have rest (other : String) (different : other ≠ job.indexDb) :
      SettledFor other aside (state.note (.boundary job suppress)) := by
    intro running isOwed
    rw [isAwaited, if_neg fun equal => different equal.symm]
    rcases settled other running isOwed with before | ⟨found, member, isDb⟩
    · exact .inl before
    · refine .inr ⟨found, ?_, isDb⟩
      rcases List.mem_append.mp member with isPresent | isAside
      · exact List.mem_append_left _ isPresent
      · rcases List.mem_cons.mp isAside with rfl | later
        · exact absurd isDb.symm different
        · exact List.mem_append_right _ later
  have split {after : QueueState} (owed : ∀ other, other ≠ job.indexDb →
      SettledFor other aside after) (own : SettledFor job.indexDb aside after) : Settled aside after := by
    intro other
    by_cases same : other = job.indexDb
    · subst same
      exact own
    · exact owed other same
  unfold QueueState.boundary
  extract_lets noted
  split
  · rename_i suppressed
    refine split rest fun _ _ => .inl ?_
    rw [isAwaited, if_pos rfl]
    exact suppressed
  · unfold maybeScheduleMaintenance
    split
    · rename_i shutting
      intro other running
      exact absurd (running.symm.trans shutting) Bool.false_ne_true
    · split
      · rename_i noneOwed
        exact split rest (.of_none noneOwed)
      · rename_i owed found
        split
        · refine split (fun other different => (rest other different).carry rfl ?_ rfl
            (.of_subset fun _ member => member)) (.of_none ?_)
          · change (noted.owed.erase job.indexDb).lookup other = _
            rw [KeyedMap.lookup_erase_eq, if_neg different]
          · change (noted.owed.erase job.indexDb).lookup job.indexDb = none
            rw [KeyedMap.lookup_erase_eq, if_pos rfl]
        · split
          · rename_i busy
            obtain ⟨other, member, isDb⟩ := List.any_eq_true.mp busy
            exact split rest (.of_present (List.mem_append_left _ member) (of_decide_eq_true isDb))
          · extract_lets pendingMarks cleared
            refine settled_push_maintenance cleared _ _ _ fun other different => ?_
            refine (rest other different).carry rfl ?_ rfl (.of_subset fun _ member => member)
            change (noted.owed.erase job.indexDb).lookup other = _
            rw [KeyedMap.lookup_erase_eq, if_neg different]

theorem Settled.boundaries {removed : List Job} (settled : Settled (removed ++ aside) state)
    (suppress : Bool) : Settled aside (boundaries suppress removed state) := by
  induction removed generalizing state with
  | nil => exact settled
  | cons job rest ih => exact ih (settled.boundary suppress)

theorem Settled.unload (settled : Settled aside state) : Settled aside state.maybeUnloadBatchModel := by
  unfold maybeUnloadBatchModel
  split
  · exact settled
  · split
    · exact settled
    · split
      · exact settled
      · exact settled.carry rfl rfl (fun _ => rfl) (.of_subset fun _ member => member)

theorem Settled.record_unreported (settled : Settled aside state) (job : Job) :
    Settled aside (state.recordUnreportedBatchLoad job) := by
  unfold recordUnreportedBatchLoad
  split
  · exact settled.carry rfl rfl (fun _ => rfl) (.of_subset fun _ member => member)
  · exact settled

theorem Settled.record_batch_load (settled : Settled aside state) (job : Job) (success : Bool)
    (loaded : Option Text) : Settled aside (state.recordBatchLoad job success loaded) := by
  unfold recordBatchLoad
  split
  · exact settled.carry rfl rfl (fun _ => rfl) (.of_subset fun _ member => member)
  · split
    · exact settled.record_unreported job
    · exact settled

/-- Flags are merged for a database that still has a boundary before it, or from a report. -/
theorem Settled.merge_owed (settled : Settled aside state) (summary : ChangeSummary)
    {source : OwedSource} (waits : source = .report ∨ ∃ job ∈ aside, job.indexDb = indexDb) :
    Settled aside (state.mergeOwed indexDb summary source) := by
  unfold mergeOwed
  extract_lets full entry merged marked
  split
  · exact settled
  · have isAwaited (other : String) (different : other ≠ indexDb) :
        awaits other (state.log ++ [.owes indexDb full source]) = awaits other state.log := by
      rw [awaits_append]
      cases source with
      | report => exact if_neg fun equal => different equal.symm
      | boundary job => rfl
    have isMarked : Settled aside marked := by
      intro other
      by_cases same : other = indexDb
      · subst same
        rcases waits with rfl | ⟨job, member, isDb⟩
        · refine fun _ _ => .inl ?_
          change awaits other (state.log ++ [_]) = true
          rw [awaits_append]
          exact if_pos rfl
        · exact .of_present (List.mem_append_right _ member) isDb
      · refine (settled other).carry rfl ?_ (isAwaited other same) (.of_subset fun _ member => member)
        change (state.owed.insert indexDb merged).lookup other = _
        rw [KeyedMap.lookup_insert_eq, if_neg same]
    split
    · exact isMarked.carry rfl rfl (fun _ => rfl) (.of_subset fun _ member => member)
    · exact isMarked

theorem Settled.record_owed {job : Job} (settled : Settled (job :: aside) state)
    (summary : Option ChangeSummary) : Settled (job :: aside) (state.recordOwed job summary) := by
  unfold recordOwed
  split
  · exact settled
  · exact settled.merge_owed _ (.inr ⟨job, List.mem_cons_self, rfl⟩)

theorem Settled.record_report (settled : Settled aside state) (indexDb : String)
    (summary : ChangeSummary) : Settled aside (state.recordReport indexDb summary) := by
  unfold recordReport
  split
  · refine settled.carry rfl rfl (fun other => ?_) (.of_subset fun _ member => member)
    change awaits other (state.log ++ [_]) = _
    rw [awaits_append]
    rfl
  · exact settled.merge_owed summary (.inl rfl)

theorem awaits_outcome (other : String) (log : List QueueEntry) (outcome : JobOutcome) :
    awaits other (log ++ [.outcome outcome]) = awaits other log := by
  rw [awaits_append]
  rfl

theorem covered_stopped {running : Job} (isRunning : state.runningJob = some running) :
    Covered (state.present ++ aside) (state.queue ++ (running :: aside)) := by
  refine .of_subset fun job member => ?_
  rw [present, isRunning] at member
  rcases List.mem_append.mp member with isPresent | isAside
  · rcases List.mem_cons.mp isPresent with rfl | queued
    · exact List.mem_append_right _ List.mem_cons_self
    · exact List.mem_append_left _ queued
  · exact List.mem_append_right _ (List.mem_cons_of_mem _ isAside)

theorem Settled.confirm_cancel (settled : Settled aside state) {running : Job} (suppress : Bool)
    (isRunning : state.runningJob = some running) : Settled aside (state.confirmCancel running suppress) := by
  unfold confirmCancel
  extract_lets outcome owed scheduled
  have isOutcome : Settled (running :: aside) outcome :=
    settled.carry rfl rfl (fun other => awaits_outcome other _ _) (covered_stopped isRunning)
  have isOwed : Settled (running :: aside) owed := (isOutcome.record_owed none).record_unreported running
  have isScheduled : Settled aside scheduled := isOwed.boundary suppress
  split
  · exact isScheduled
  · exact isScheduled.unload

theorem Settled.finish_running (settled : Settled aside state) {finished : Job}
    (result : JobRunResult) (isRunning : state.runningJob = some finished) :
    Settled aside (state.finishRunning finished result) := by
  unfold finishRunning
  extract_lets status recorded outcome owed loaded
  have isOutcome : Settled (finished :: aside) outcome :=
    settled.carry rfl rfl (fun other => awaits_outcome other _ _) (covered_stopped isRunning)
  have isOwed : Settled (finished :: aside) owed := isOutcome.record_owed result.summary
  have isLoaded : Settled (finished :: aside) loaded := isOwed.record_batch_load finished _ _
  exact (isLoaded.boundary false).unload

theorem Settled.cancel_queued {front slot : List Int} (ids : List Int) (found : Cancelling)
    (state : QueueState) (kept : state.Kept front slot) (placed : Placed front state)
    (settled : Settled (found.removed ++ aside) state) :
    Settled ((cancelQueued ids found state).2.removed ++ aside) (cancelQueued ids found state).1 := by
  induction ids generalizing found state with
  | nil => exact settled
  | cons id rest ih =>
    unfold QueueState.cancelQueued
    split
    · exact ih _ state kept placed settled
    · split
      · exact ih _ state kept placed settled
      · rename_i job isQueued
        have isFound := (kept.index id).symm.trans isQueued
        have same := find_job_id isFound
        have queued : id ∈ jobIds state.queue := find_job_is_some.mp (by rw [isFound]; rfl)
        dsimp only
        rw [same]
        refine ih _ _ ((kept.remove queued).record_outcome .cancelled none) (placed.cancel id) ?_
        refine settled.carry rfl rfl (fun other => awaits_outcome other _ _) ?_
        have distinct : (jobIds state.queue).Nodup :=
          (List.pairwise_append.mp kept.order).2.1.imp fun less => Int.ne_of_lt less
        refine .of_subset fun other member => ?_
        change other ∈ (state.runningJob.toList ++ state.queue.filter (·.queueId ≠ id)) ++
          ((found.removed ++ [job]) ++ aside)
        rcases List.mem_append.mp member with isPresent | isAside
        · rcases List.mem_append.mp isPresent with running | isHere
          · exact List.mem_append_left _ (List.mem_append_left _ running)
          · by_cases sameId : other.queueId = id
            · have isJob : other = job := List.inj_on_of_nodup_map distinct isHere
                (find_job_mem isFound) (sameId.trans same.symm)
              subst isJob
              exact List.mem_append_right _ (List.mem_append_left _
                (List.mem_append_right _ (List.mem_singleton_self _)))
            · exact List.mem_append_left _ (List.mem_append_right _
                (List.mem_filter.mpr ⟨isHere, decide_eq_true sameId⟩))
        · rcases List.mem_append.mp isAside with removed | later
          · exact List.mem_append_right _ (List.mem_append_left _ (List.mem_append_left _ removed))
          · exact List.mem_append_right _ (List.mem_append_right _ later)

theorem covered_upgraded (indexDb : String) (jobs : List Job) : Covered jobs (upgradeFirst indexDb jobs) := by
  induction jobs with
  | nil => exact fun _ member => nomatch member
  | cons first rest ih =>
    intro job member
    unfold upgradeFirst
    split
    · rcases List.mem_cons.mp member with rfl | later
      · exact ⟨upgrade job, List.mem_cons_self, rfl⟩
      · exact ⟨job, List.mem_cons_of_mem _ later, rfl⟩
    · rcases List.mem_cons.mp member with rfl | later
      · exact ⟨job, List.mem_cons_self, rfl⟩
      · obtain ⟨other, isOther, sameDb⟩ := ih job later
        exact ⟨other, List.mem_cons_of_mem _ isOther, sameDb⟩

theorem upgrade_queued_fields (state : QueueState) (job : Job) : (state.upgradeQueued job).queue = state.queue ∧
      (state.upgradeQueued job).runningJob = state.runningJob ∧
      (state.upgradeQueued job).shuttingDown = state.shuttingDown ∧
      (state.upgradeQueued job).owed = state.owed ∧ (state.upgradeQueued job).log = state.log := by
  unfold upgradeQueued
  split <;> exact ⟨rfl, rfl, rfl, rfl, rfl⟩

theorem Settled.upgraded (settled : Settled [] state) {job : Job}
    (isQueue : next.queue = upgradeFirst indexDb state.queue) (running : next.runningJob = state.runningJob)
    (shutting : next.shuttingDown = state.shuttingDown) (owed : next.owed = state.owed.erase indexDb)
    (log : next.log = state.log ++ [.upgraded job]) : Settled [] next := by
  intro other
  by_cases same : other = indexDb
  · refine .of_none ?_
    rw [owed, KeyedMap.lookup_erase_eq, if_pos same]
  · refine (settled other).carry shutting ?_ ?_ ?_
    · rw [owed, KeyedMap.lookup_erase_eq, if_neg same]
    · rw [log, awaits_append]
      rfl
    · intro found member
      rw [List.append_nil] at member ⊢
      rw [present, isQueue, running]
      rcases List.mem_append.mp member with isRunning | queued
      · exact ⟨found, List.mem_append_left _ isRunning, rfl⟩
      · obtain ⟨upgraded, isThere, sameDb⟩ := covered_upgraded indexDb state.queue found queued
        exact ⟨upgraded, List.mem_append_right _ isThere, sameDb⟩

theorem Settled.flush (settled : Settled aside state) : Settled aside state.flushTagsDirtyMarks :=
  settled.carry rfl rfl (fun _ => rfl) (.of_subset fun _ member => member)

end QueueState

namespace JobSystem

def setAside : Task → List Job
  | .closeCancel found _ => found.removed
  | .startNext | .cancel _ | .closeCancelRunning | .closeShutdown | .close _ => []

def starting : Option Waiting → List Job
  | some (.starting job) => [job]
  | some (.cancelling _ _) | none => []

/-- The jobs a handler holds outside the queue. -/
def aside (system : JobSystem) : List Job := starting system.waiting ++ system.tasks.flatMap setAside

structure Accountable (system : JobSystem) : Prop where
  books : system.state.Books
  settled : system.state.Settled system.aside

variable {system : JobSystem}

theorem Accountable.resume (accountable : system.Accountable) (steady : system.Steady)
    {waiting : Waiting} {reply : RunnerReply}
    (waits : system.waiting = some waiting) (replied : system.reply = some reply) :
    (JobSystem.resume { system with waiting := none, reply := none } waiting reply).Accountable := by
  have books := accountable.books
  have settled := accountable.settled
  have fits := steady.synced.reply
  have wait := steady.synced.wait
  rw [ReplyFits, waits, replied] at fits
  rw [WaitFits, waits] at wait
  rw [aside, waits] at settled
  cases waiting with
  | starting job =>
    dsimp only at fits wait
    subst fits
    refine ⟨books.same rfl rfl, settled.carry rfl rfl (fun _ => rfl) (.of_subset fun other member => ?_)⟩
    rw [QueueState.present, wait] at member
    rcases List.mem_append.mp member with queued | isAside
    · exact List.mem_append_left _ (List.mem_append_right _ queued)
    · rcases List.mem_append.mp isAside with isJob | later
      · rw [List.mem_singleton.mp isJob]
        exact List.mem_append_left _ (List.mem_append_left _ (List.mem_singleton_self _))
      · exact List.mem_append_right _ later
  | cancelling running suppress =>
    rcases fits with rfl | rfl
    · exact ⟨books, settled⟩
    · unfold JobSystem.resume
      dsimp only
      rw [if_pos rfl]
      exact ⟨books.confirm_cancel running suppress, settled.confirm_cancel suppress wait⟩

theorem Accountable.perform (accountable : system.Accountable) {task : Task} {rest : List Task}
    (idle : system.waiting = none) (tasks : system.tasks = task :: rest) :
    (JobSystem.perform { system with tasks := rest } task).Accountable := by
  have books := accountable.books
  have settled := accountable.settled
  rw [aside, idle, tasks, List.flatMap_cons] at settled
  have same {other : List Job} (is : starting system.waiting ++ rest.flatMap setAside = other)
      (isNone : setAside task = []) : system.state.Settled other := by
    rw [← is, idle]
    rw [isNone] at settled
    exact settled
  cases task with
  | startNext =>
    change (JobSystem.startNext { system with tasks := rest }).Accountable
    unfold JobSystem.startNext
    split
    · exact ⟨books, same rfl rfl⟩
    · split
      · exact ⟨books, same rfl rfl⟩
      · rename_i job behind queue
        change system.state.queue = job :: behind at queue
        refine ⟨books.same rfl rfl, (same rfl rfl).carry rfl rfl (fun _ => rfl)
          (.of_subset fun other member => ?_)⟩
        rw [idle, QueueState.present, queue] at member
        rcases List.mem_append.mp member with isPresent | isAside
        · rcases List.mem_append.mp isPresent with running | queued
          · exact List.mem_append_left _ (List.mem_append_left _ running)
          · rcases List.mem_cons.mp queued with rfl | later
            · exact List.mem_append_right _ (List.mem_append_left _ (List.mem_singleton_self _))
            · exact List.mem_append_left _ (List.mem_append_right _ later)
        · exact List.mem_append_right _ (List.mem_append_right _ isAside)
  | cancel suppress =>
    change (JobSystem.cancelRunning { system with tasks := rest } suppress).Accountable
    unfold JobSystem.cancelRunning
    split
    · exact ⟨books, same rfl rfl⟩
    · refine ⟨books, ?_⟩
      have still := same rfl rfl
      rw [idle] at still
      exact still
  | closeCancel found suppress =>
    refine ⟨(books.boundaries suppress found.removed).unload, ?_⟩
    have removed : QueueState.Settled (found.removed ++ rest.flatMap setAside) system.state := settled
    have done := (removed.boundaries suppress).unload
    change QueueState.Settled (starting system.waiting ++ rest.flatMap setAside) _
    rw [idle]
    exact done
  | closeCancelRunning => exact ⟨books.same rfl rfl, (same rfl rfl).flush⟩
  | closeShutdown => exact ⟨books.unload.same rfl rfl, (same rfl rfl).unload.flush⟩
  | close answer => exact ⟨books.same rfl rfl, (same rfl rfl).flush⟩

theorem Accountable.settled_idle (accountable : system.Accountable) (idle : system.waiting = none)
    (done : system.tasks = []) : system.state.Settled [] := by
  have settled := accountable.settled
  have noneAside : system.aside = [] := by rw [aside, idle, done]; rfl
  rwa [noneAside] at settled

/-- What a handler that sets no job aside leaves behind. -/
theorem goes_on {rest : List QueueMessage} (idle : system.waiting = none) (state : QueueState)
    (tasks : List Task) (isBooks : state.Books) (isSettled : state.Settled [])
    (isNone : tasks.flatMap setAside = []) :
    (goOn { system with mailbox := rest } state tasks).Accountable := by
  refine ⟨isBooks, ?_⟩
  change QueueState.Settled (starting system.waiting ++ tasks.flatMap setAside) state
  rw [idle, isNone]
  exact isSettled

theorem Accountable.client (accountable : system.Accountable) (steady : system.Steady)
    {message : ClientMessage} {rest : List QueueMessage} (idle : system.waiting = none)
    (done : system.tasks = []) : (handle { system with mailbox := rest } (.client message)).Accountable := by
  have books := accountable.books
  have settled := accountable.settled_idle idle done
  have goesOn := @goes_on system rest idle
  have stays (answers : List Answer) (state : QueueState) (isBooks : state.Books)
      (isSettled : state.Settled []) :
      ({ system with state, answers, mailbox := rest } : JobSystem).Accountable := by
    refine ⟨isBooks, ?_⟩
    change QueueState.Settled (starting system.waiting ++ system.tasks.flatMap setAside) state
    rw [idle, done]
    exact isSettled
  have started (state : QueueState) (answer : Option Answer) :
      (startIfIdle state ++ [Task.close answer]).flatMap setAside = [] := by
    unfold startIfIdle
    split <;> rfl
  cases message with
  | enqueue request =>
    change (JobSystem.enqueue { system with mailbox := rest } request).Accountable
    unfold JobSystem.enqueue
    split
    · exact stays _ _ books settled
    · exact goesOn _ _ (books.same rfl rfl) (settled.push_jobs [request]) (started _ _)
  | enqueueBatch requests dedups =>
    change (JobSystem.enqueueBatch { system with mailbox := rest } requests dedups).Accountable
    unfold JobSystem.enqueueBatch
    split
    · exact stays _ _ books settled
    · extract_lets skipped
      refine goesOn _ _ (books.push_jobs _) (settled.push_jobs _) ?_
      split
      · rfl
      · exact started _ _
  | enqueueMaintenance indexDb userDataDb =>
    change (JobSystem.enqueueMaintenance { system with mailbox := rest } indexDb userDataDb).Accountable
    unfold JobSystem.enqueueMaintenance
    extract_lets isFor
    split
    · exact stays _ _ books settled
    · split
      · exact stays _ _ books settled
      · split
        · rename_i job isQueued
          obtain ⟨sameQueue, running, shutting, owed, log⟩ := QueueState.upgrade_queued_fields
            { system.state with queue := QueueState.upgradeFirst indexDb system.state.queue } job
          have isOwed := congrArg (fun owed => owed.erase indexDb) owed
          have isLog := congrArg (· ++ [QueueEntry.upgraded (QueueState.upgrade job)]) log
          exact stays _ _ (books.upgraded (List.find?_some isQueued) isOwed isLog)
            (settled.upgraded sameQueue running shutting isOwed isLog)
        · refine goesOn _ _ ?_ ?_ (started _ _)
          · exact books.push_maintenance indexDb userDataDb .all false rfl rfl rfl
          · refine QueueState.settled_push_maintenance _ _ _ _ fun other different => ?_
            refine (settled other).carry rfl ?_ rfl (.of_subset fun _ member => member)
            change (system.state.owed.erase indexDb).lookup other = _
            rw [KeyedMap.lookup_erase_eq, if_neg different]
  | getQueueStatus => exact goesOn _ _ books settled rfl
  | cancelQueued queueIds suppress =>
    change (JobSystem.cancelQueued { system with mailbox := rest } queueIds suppress).Accountable
    have kept := steady.kept
    have placed := steady.placed
    have removed := QueueState.Settled.cancel_queued queueIds ⟨none, [], []⟩ system.state kept placed settled
    refine ⟨books.cancel_queued queueIds ⟨none, [], []⟩, ?_⟩
    unfold JobSystem.cancelQueued
    rcases cancelled : QueueState.cancelQueued queueIds ⟨none, [], []⟩ system.state with ⟨state, found⟩
    rw [cancelled] at removed
    change QueueState.Settled (starting system.waiting ++
      ((if found.runningTarget.isSome then [Task.cancel suppress] else []) ++
        [Task.closeCancel found suppress]).flatMap setAside) state
    rw [idle, List.flatMap_append]
    have noneBefore : (if found.runningTarget.isSome = true then [Task.cancel suppress] else []).flatMap
        setAside = [] := by
      split <;> rfl
    rw [noneBefore]
    exact removed
  | cancelRunning suppress => exact goesOn _ _ books settled rfl
  | recordOwed indexDb summary =>
    exact goesOn _ _ (books.record_report indexDb summary) (settled.record_report indexDb summary) rfl
  | shutdown =>
    exact goesOn _ _ books.shed (fun _ running => absurd running.symm Bool.false_ne_true) rfl

theorem Accountable.runner_finished (accountable : system.Accountable) {rest : List QueueMessage}
    {queueId : Int} {result : JobRunResult} (idle : system.waiting = none) (done : system.tasks = []) :
    (runnerFinished { system with mailbox := rest } queueId result).Accountable := by
  have books := accountable.books
  have settled := accountable.settled_idle idle done
  have goesOn := @goes_on system rest idle
  unfold runnerFinished
  split
  · exact goesOn _ _ (books.same rfl rfl) settled.flush rfl
  · rename_i running isRunning
    split
    · exact goesOn _ _ (books.finish_running running result) (settled.finish_running result isRunning) rfl
    · exact goesOn _ _ (books.same rfl rfl) settled.flush rfl

theorem Accountable.step (accountable : system.Accountable) (steady : system.Steady)
    (event : JobEvent) : (system.step event).Accountable := by
  cases event with
  | post message => exact ⟨accountable.books, accountable.settled⟩
  | runnerTurn =>
    change system.runnerTurn.Accountable
    have same (next : JobSystem) (state : next.state = system.state)
        (waiting : next.waiting = system.waiting) (tasks : next.tasks = system.tasks) :
        next.Accountable := by
      refine ⟨state ▸ accountable.books, ?_⟩
      rw [aside, state, waiting, tasks]
      exact accountable.settled
    unfold runnerTurn
    split
    · rename_i message others mailbox
      cases message with
      | runJob job =>
        change (JobSystem.runJob { system with runnerMailbox := others } job).Accountable
        unfold JobSystem.runJob
        split <;> exact same _ rfl rfl rfl
      | cancelRunning | jobCompleted => exact same _ rfl rfl rfl
    · exact accountable
  | jobEnds queueId result =>
    change (system.jobEnds queueId result).Accountable
    unfold jobEnds
    split
    · exact ⟨accountable.books, accountable.settled⟩
    · exact accountable
  | queueTurn =>
    change system.queueTurn.Accountable
    unfold queueTurn
    split
    · rename_i waiting waits
      split
      · rename_i reply replied
        exact accountable.resume steady waits replied
      · exact accountable
    · rename_i idle
      split
      · rename_i task others tasks
        exact accountable.perform idle tasks
      · rename_i done
        split
        · rename_i message others mailbox
          cases message with
          | client message => exact accountable.client steady idle done
          | runnerFinished queueId result => exact accountable.runner_finished idle done
        · exact accountable

end JobSystem

theorem accountable_run (events : List JobEvent) :
    (jobMachine.run events).Steady ∧ (jobMachine.run events).Accountable := by
  refine jobMachine.run_invariant (fun system => system.Steady ∧ system.Accountable)
    (fun _ _ => True) ⟨steady_init, ⟨⟨fun _ => rfl, fun _ _ found => ?_, ?_, fun _ => Nat.le_refl _⟩,
      fun _ _ isOwed => ?_⟩⟩
    (fun _ event _ holds => ⟨holds.1.step event, holds.2.step holds.1 event⟩) events
    (Machine.admitted_run_of_forall jobMachine fun _ _ => trivial)
  · cases found
  · intro before entry after split
    cases before <;> cases split
  · cases isOwed

namespace JobSystem

structure MaintenanceKept (system : JobSystem) : Prop where
  /-- A flag stays owed until a maintenance job of its database carries it. -/
  held : ∀ before indexDb summary source after flag,
    system.state.log = before ++ .owes indexDb summary source :: after →
    summary.on flag = true →
    ((system.state.owed.lookup indexDb).getD .none).on flag = true ∨
      ∃ between entry later job, after = between ++ entry :: later ∧ payment entry = some job ∧
        job.indexDb = indexDb ∧ job.jobType = .dbMaintenance ∧
        (ChangeSummary.fromMetadata job.metadata).on flag = true
  /-- Maintenance is synthesized when no other job of its database is there. -/
  alone : ∀ before job flags beside after,
    system.state.log = before ++ .appended job flags true beside :: after →
    ∀ other ∈ beside, other.indexDb ≠ job.indexDb
  /-- Nothing is owed without a job of the database, after a boundary that was not
  suppressed and no report since. -/
  settled : system.AtRest → system.state.shuttingDown = false → ∀ indexDb,
    (∀ job ∈ system.state.present, job.indexDb ≠ indexDb) →
    awaits indexDb system.state.log = false → system.state.owed.lookup indexDb = none
  /-- Each synthesized job is charged to flags that came in since the payment before it. -/
  charged : ∀ before job flags beside after,
    system.state.log = before ++ .appended job flags true beside :: after →
    ∃ early summary source since, before = early ++ .owes job.indexDb summary source :: since ∧
      ∀ entry ∈ since, ∀ other, payment entry = some other → other.indexDb ≠ job.indexDb
  /-- No maintenance job owes, and every other job owes at most once. -/
  sources : ∀ before indexDb summary job after,
    system.state.log = before ++ .owes indexDb summary (.boundary job) :: after →
    job.jobType ≠ .dbMaintenance ∧ job.indexDb = indexDb
  once : ∀ id, (chargedIds system.state.log).count id ≤ 1

variable {system : JobSystem}

theorem Accountable.held (accountable : system.Accountable) {before after : List QueueEntry}
    {indexDb : String} {summary : ChangeSummary} {source : OwedSource} {flag : MaintenanceFlag}
    (split : system.state.log = before ++ .owes indexDb summary source :: after)
    (isOn : summary.on flag = true) : ((system.state.owed.lookup indexDb).getD .none).on flag = true ∨
      ∃ between entry later job, after = between ++ entry :: later ∧ payment entry = some job ∧
        job.indexDb = indexDb ∧ job.jobType = .dbMaintenance ∧
        (ChangeSummary.fromMetadata job.metadata).on flag = true := by
  rw [accountable.books.balance]
  have owes : (unpaid indexDb (before ++ [.owes indexDb summary source])).on flag = true := by
    rw [unpaid_snoc, unpaidAfter, if_pos rfl, ChangeSummary.or_with_on, isOn, Bool.or_true]
  have isLog : before ++ [.owes indexDb summary source] ++ after = system.state.log := by
    rw [split, List.append_assoc]
    rfl
  rcases unpaid_until indexDb flag _ after owes with still | ⟨between, entry, later, job, isAfter, pays, isDb, owed⟩
  · rw [isLog] at still
    exact .inl still
  · have admissible : Admissible (before ++ [.owes indexDb summary source] ++ between) entry := by
      refine accountable.books.kept _ entry later ?_
      rw [← isLog, isAfter]
      exact (List.append_assoc _ between (entry :: later)).symm
    subst isDb
    obtain ⟨isMaintenance, carries⟩ := payment_carries admissible pays flag owed
    exact .inr ⟨between, entry, later, job, isAfter, pays, rfl, isMaintenance, carries⟩

theorem Accountable.maintenance_kept (accountable : system.Accountable) (steady : system.Steady) :
    system.MaintenanceKept := by
  have kept := accountable.books.kept
  refine ⟨fun _ _ _ _ _ _ => accountable.held, fun before job flags beside after split => ?_,
    fun atRest running indexDb absent notAwaited => ?_,
    fun before job flags beside after split => ?_, fun before indexDb summary job after split => ?_,
    fun id => ?_⟩
  · obtain ⟨-, -, -, -, alone⟩ := kept before _ after split
    exact alone
  · cases isOwed : system.state.owed.lookup indexDb with
    | none => rfl
    | some summary =>
      rcases accountable.settled indexDb running (by rw [isOwed]; rfl) with awaited | ⟨job, member, isDb⟩
      · rw [notAwaited] at awaited
        cases awaited
      · rw [aside, atRest.1, atRest.2] at member
        exact absurd isDb (absent job (by simpa [starting] using member))
  · obtain ⟨-, -, isFlags, notEmpty, -⟩ := kept before _ after split
    exact charged_since job.indexDb before (isFlags ▸ notEmpty)
  · exact (kept before _ after split).2 job rfl
  · have charged := accountable.books.charged id
    have counted := steady.kept.counted id
    split at counted <;> omega

end JobSystem

theorem run_maintenance_kept (events : List JobEvent) : (jobMachine.run events).MaintenanceKept :=
  let ⟨steady, accountable⟩ := accountable_run events
  accountable.maintenance_kept steady

/-- Whether the last boundary of a database was suppressed. -/
def lastBoundary (indexDb : String) (log : List QueueEntry) : Option Bool :=
  log.foldl (fun last entry =>
    match entry with
    | .boundary job suppressed => if job.indexDb = indexDb then some suppressed else last
    | _ => last) none

/-- A job that changes nothing ends, and a report comes in behind it. -/
def reportBehind : List JobEvent :=
  [.post (.enqueue ⟨.folderRescan, "a", "u", none, none, none, none, none⟩), .queueTurn, .queueTurn,
    .runnerTurn, .queueTurn, .queueTurn, .jobEnds 1 ⟨true, none, some .none, none⟩, .runnerTurn,
    .queueTurn, .queueTurn, .queueTurn, .post (.recordOwed "a" ⟨true, false, false⟩), .queueTurn,
    .queueTurn]

theorem report_behind_stays_owed : ¬∀ (events : List JobEvent) (indexDb : String),
    .post .shutdown ∉ events → (∀ indexDb, .ignored indexDb ∉ (jobMachine.run events).state.log) →
    (jobMachine.run events).AtRest →
    (∀ job ∈ (jobMachine.run events).state.present, job.indexDb ≠ indexDb) →
    lastBoundary indexDb (jobMachine.run events).state.log = some false →
    (jobMachine.run events).state.owed.lookup indexDb = none := by
  intro claimed
  have isLog : (jobMachine.run reportBehind).state.log = [.outcome ⟨1, .completed, none⟩,
      .boundary ⟨⟨.folderRescan, "a", "u", none, none, none, none, none⟩, 1⟩ false,
      .owes "a" ⟨true, false, false⟩ .report] := by decide +kernel
  have nothing := claimed reportBehind "a" (by simp [reportBehind]) (by simp [isLog]) ⟨rfl, rfl⟩
    (by decide +kernel) (by rw [isLog]; decide)
  have owed : ((jobMachine.run reportBehind).state.owed.lookup "a").isSome = true := by decide +kernel
  rw [nothing] at owed
  cases owed

end Panoptikon.Jobs
