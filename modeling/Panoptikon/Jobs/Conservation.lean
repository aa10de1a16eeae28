import Panoptikon.Jobs.Synchrony

/-!
# The queue conserves its jobs

The books of the queue, the step with the runner and the next start hold together in
every state. One lemma for each kind of step, and the run from the queue just
spawned.
-/

namespace Panoptikon.Jobs

open Foundation

namespace JobSystem

/-- The job in the running slot, or on its way there. -/
def slot (system : JobSystem) : List Int :=
  match system.waiting with
  | some (.starting job) => [job.queueId]
  | _ => (system.state.runningJob.map fun job => job.queueId).toList

def restarts : Task → Bool
  | .startNext | .closeCancel _ _ => true
  | .cancel _ | .closeCancelRunning | .closeShutdown | .close _ => false

def closes : Task → Bool
  | .startNext | .cancel _ => false
  | .closeCancel _ _ | .closeCancelRunning | .closeShutdown | .close _ => true

/-- The next job is about to start, or need not. -/
def Flowing (system : JobSystem) : Prop :=
  system.state.shuttingDown = true ∨ system.state.runningJob.isSome = true ∨
    system.state.queue = [] ∨ (∃ job, system.waiting = some (.starting job)) ∨
    ∃ task ∈ system.tasks, restarts task = true

/-- A handler ends with a task that flushes the marks. -/
def Marked (system : JobSystem) : Prop :=
  (system.tasks = [] ∧ system.waiting = none ∧ system.state.pendingMarks = []) ∨
    ∃ before last, system.tasks = before ++ [last] ∧ closes last = true

/-- The ids handed to the runner, in their order. -/
def front (system : JobSystem) : List Int := system.started ++ system.unstarted

structure Steady (system : JobSystem) : Prop where
  kept : system.state.Kept system.front system.slot
  placed : QueueState.Placed system.front system.state
  synced : system.Synced
  flowing : system.Flowing
  marked : system.Marked

variable {system next : JobSystem}

theorem slot_of_idle (idle : system.waiting = none) :
    system.slot = (system.state.runningJob.map fun job => job.queueId).toList := by
  rw [slot, idle]

theorem front_of_idle (idle : system.waiting = none) : system.front = system.started := by
  rw [front, unstarted, idle, List.append_nil]

variable {job : Job}

theorem Steady.run_job (steady : system.Steady) {rest : List RunnerMessage}
    (mailbox : system.runnerMailbox = .runJob job :: rest) :
    (runJob { system with runnerMailbox := rest } job).Steady := by
  obtain ⟨expects, -⟩ := steady.synced.head_request mailbox rfl
  obtain ⟨waits, silent⟩ := starting_of_expected expects
  have isFront : system.front = system.started ++ [job.queueId] := by
    rw [front, unstarted, waits, silent]
  have order := steady.kept.order
  rw [isFront, List.append_assoc] at order
  have fresh : job.queueId ∉ system.started := by
    intro again
    have less := (List.pairwise_append.mp order).2.2 _ again job.queueId
      (List.mem_append_left _ (List.mem_singleton_self _))
    omega
  obtain ⟨synced, free⟩ := steady.synced.run_job mailbox fresh
  have sameFront : (runJob { system with runnerMailbox := rest } job).front = system.front := by
    rw [isFront, front, unstarted]
    unfold runJob
    dsimp only
    rw [free, if_neg (by exact Bool.false_ne_true)]
    unfold respond
    dsimp only
    rw [waits]
    exact List.append_nil _
  have sameState : (runJob { system with runnerMailbox := rest } job).state = system.state := by
    unfold runJob
    split <;> rfl
  have sameWaiting : (runJob { system with runnerMailbox := rest } job).waiting = system.waiting := by
    unfold runJob
    split <;> rfl
  have sameTasks : (runJob { system with runnerMailbox := rest } job).tasks = system.tasks := by
    unfold runJob
    split <;> rfl
  refine ⟨?_, ?_, synced, ?_, ?_⟩
  · rw [sameFront, slot, sameWaiting, sameState]
    exact steady.kept
  · rw [sameFront, sameState]
    exact steady.placed
  · rw [Flowing, sameState, sameWaiting, sameTasks]
    exact steady.flowing
  · rw [Marked, sameState, sameTasks, sameWaiting]
    exact steady.marked

theorem Steady.cancel_runner (steady : system.Steady) {rest : List RunnerMessage}
    (mailbox : system.runnerMailbox = .cancelRunning :: rest) :
    (handleRunner { system with runnerMailbox := rest } .cancelRunning).Steady := by
  obtain ⟨expects, -⟩ := steady.synced.head_request mailbox rfl
  obtain ⟨running, suppress, waits, -⟩ := cancelling_of_expected expects
  have sameFront : (handleRunner { system with runnerMailbox := rest } .cancelRunning).front =
      system.front := by
    rw [front, front, unstarted, unstarted, waits]
    unfold handleRunner respond
    dsimp only
  refine ⟨?_, ?_, steady.synced.cancel_runner mailbox, steady.flowing, steady.marked⟩
  · rw [sameFront]
    exact steady.kept
  · rw [sameFront]
    exact steady.placed

theorem Steady.runner_turn (steady : system.Steady) : system.runnerTurn.Steady := by
  unfold runnerTurn
  split
  · rename_i message rest mailbox
    cases message with
    | runJob job => exact steady.run_job mailbox
    | cancelRunning => exact steady.cancel_runner mailbox
    | jobCompleted queueId result =>
      exact ⟨steady.kept, steady.placed, steady.synced.job_completed mailbox, steady.flowing,
        steady.marked⟩
  · exact steady

theorem Steady.job_ends (steady : system.Steady) (queueId : Int) (result : JobRunResult) :
    (system.jobEnds queueId result).Steady := by
  have synced := steady.synced.job_ends queueId result
  unfold jobEnds at synced ⊢
  split at synced <;> rename_i isWatched
  · rw [if_pos isWatched]
    exact ⟨steady.kept, steady.placed, synced, steady.flowing, steady.marked⟩
  · rw [if_neg isWatched]
    exact steady

/-- A handler leaves the runner alone. -/
structure Handled (system next : JobSystem) (rest : List QueueMessage) : Prop where
  apart : Apart system next
  waiting : next.waiting = none
  reply : next.reply = none
  mailbox : next.mailbox = rest

theorem Steady.handled (steady : system.Steady) {message : QueueMessage} {rest : List QueueMessage}
    (idle : system.waiting = none) (mailbox : system.mailbox = message :: rest)
    (other : ∀ id result, message = .runnerFinished id result → system.handed ≠ some id)
    (handled : Handled system next rest) (running : next.state.runningJob = system.state.runningJob)
    (kept : next.state.Kept system.started system.slot) (placed : QueueState.Placed system.started next.state)
    (flowing : next.Flowing) (marked : next.Marked) : next.Steady := by
  have sameHanded : next.handed = system.handed := by
    rw [handed_of_idle handled.waiting, handed_of_idle idle, running]
  have sameFront : next.front = system.started := by
    rw [front_of_idle handled.waiting, handled.apart.started]
  have sameSlot : next.slot = system.slot := by
    rw [slot_of_idle handled.waiting, slot_of_idle idle, running]
  refine ⟨?_, ?_, ?_, flowing, marked⟩
  · rw [sameFront, sameSlot]
    exact kept
  · rw [sameFront]
    exact placed
  · refine steady.synced.apart handled.apart (handled.waiting.trans idle.symm)
      (handled.reply.trans (steady.synced.reply_of_idle idle).symm) running
      (fun later member => ?_) (fun id result isHanded member => ?_)
    · rw [mailbox]
      rw [handled.mailbox] at member
      exact List.mem_cons_of_mem _ member
    · rw [handled.mailbox]
      rw [mailbox] at member
      rw [sameHanded] at isHanded
      rcases List.mem_cons.mp member with isThis | later
      · exact absurd isHanded (other id result isThis.symm)
      · exact later

/-- A state that has grown, and tasks that start the next job when none runs. -/
theorem Steady.grown (steady : system.Steady) {message : ClientMessage} {rest : List QueueMessage}
    (idle : system.waiting = none) (mailbox : system.mailbox = .client message :: rest)
    (handled : Handled system next rest) (mayGrow : system.state.MayGrow next.state)
    (flowing : next.Flowing) (marked : next.Marked) : next.Steady := by
  have kept := steady.kept
  have placed := steady.placed
  rw [front_of_idle idle] at kept placed
  have running : next.state.runningJob = system.state.runningJob := by
    obtain ⟨added, grows⟩ := mayGrow
    exact grows.running
  exact steady.handled idle mailbox nofun handled running (kept.grows mayGrow)
    (placed.grows mayGrow) flowing marked

theorem flowing_of_start {state : QueueState} {tasks : List Task}
    (isState : next.state = state) (isTasks : next.tasks = startIfIdle state ++ tasks) : next.Flowing := by
  rw [Flowing, isState, isTasks]
  cases running : state.runningJob with
  | none =>
    refine .inr (.inr (.inr (.inr ⟨.startNext, List.mem_append_left _ ?_, rfl⟩)))
    rw [startIfIdle, running]
    exact List.mem_singleton_self _
  | some job => exact .inr (.inl rfl)

theorem Flowing.at_rest (flowing : system.Flowing) (idle : system.waiting = none)
    (done : system.tasks = []) : system.state.shuttingDown = true ∨
      system.state.runningJob.isSome = true ∨ system.state.queue = [] := by
  rcases flowing with shutting | running | empty | ⟨job, waits⟩ | ⟨task, member, -⟩
  · exact .inl shutting
  · exact .inr (.inl running)
  · exact .inr (.inr empty)
  · rw [idle] at waits
    cases waits
  · rw [done] at member
    cases member

theorem Flowing.of_rest (rests : next.state.shuttingDown = true ∨
    next.state.runningJob.isSome = true ∨ next.state.queue = []) : next.Flowing := by
  rcases rests with shutting | running | empty
  · exact .inl shutting
  · exact .inr (.inl running)
  · exact .inr (.inr (.inl empty))

theorem Marked.at_rest (marked : system.Marked) (done : system.tasks = []) :
    system.waiting = none ∧ system.state.pendingMarks = [] := by
  rcases marked with ⟨-, none⟩ | ⟨before, last, tasks, -⟩
  · exact none
  · rw [done] at tasks
    cases before <;> cases tasks

theorem push_jobs_empty (requests : List JobRequest) (state : QueueState)
    (empty : (QueueState.pushJobs requests state).2.isEmpty = true) :
    (QueueState.pushJobs requests state).1 = state := by
  cases requests with
  | nil => rfl
  | cons request rest =>
    unfold QueueState.pushJobs at empty
    cases empty

theorem Steady.enqueue (steady : system.Steady) {rest : List QueueMessage} {request : JobRequest}
    (idle : system.waiting = none) (done : system.tasks = [])
    (mailbox : system.mailbox = .client (.enqueue request) :: rest) :
    (JobSystem.enqueue { system with mailbox := rest } request).Steady := by
  have silent := steady.synced.reply_of_idle idle
  unfold JobSystem.enqueue
  split
  · rename_i shutting
    refine steady.grown idle mailbox ⟨⟨rfl, rfl, rfl, rfl, rfl⟩, idle, silent, rfl⟩ (.refl _)
      (.inl shutting) (.inl ⟨done, steady.marked.at_rest done⟩)
  · refine steady.grown idle mailbox ⟨⟨rfl, rfl, rfl, rfl, rfl⟩, idle, silent, rfl⟩
      (QueueState.append_grows system.state request) (flowing_of_start rfl rfl)
      (.inr ⟨_, .close _, rfl, rfl⟩)

theorem Steady.enqueue_batch (steady : system.Steady) {rest : List QueueMessage}
    {requests : List JobRequest} {dedups : List BatchDedup}
    (idle : system.waiting = none) (done : system.tasks = [])
    (mailbox : system.mailbox = .client (.enqueueBatch requests dedups) :: rest) :
    (JobSystem.enqueueBatch { system with mailbox := rest } requests dedups).Steady := by
  have silent := steady.synced.reply_of_idle idle
  unfold JobSystem.enqueueBatch
  split
  · rename_i shutting
    exact steady.grown idle mailbox ⟨⟨rfl, rfl, rfl, rfl, rfl⟩, idle, silent, rfl⟩ (.refl _)
      (.inl shutting) (.inl ⟨done, steady.marked.at_rest done⟩)
  · extract_lets skipped
    have mayGrow := QueueState.push_jobs_grows
      (requests.filter fun request => !skipped.contains request.indexDb) system.state
    have unchanged := push_jobs_empty
      (requests.filter fun request => !skipped.contains request.indexDb) system.state
    rcases pushed : QueueState.pushJobs
      (requests.filter fun request => !skipped.contains request.indexDb) system.state
      with ⟨state, models⟩
    rw [pushed] at mayGrow unchanged
    dsimp only at mayGrow unchanged ⊢
    refine steady.grown idle mailbox ⟨⟨rfl, rfl, rfl, rfl, rfl⟩, idle, silent, rfl⟩ mayGrow ?_
      (.inr ⟨_, .close _, rfl, rfl⟩)
    by_cases empty : models.isEmpty = true
    · refine Flowing.of_rest ?_
      change state.shuttingDown = true ∨ state.runningJob.isSome = true ∨ state.queue = []
      rw [unchanged empty]
      exact steady.flowing.at_rest idle done
    · have start : (if models.isEmpty = true then [] else startIfIdle state) ++
          [Task.close (some (.batch models skipped))] =
          startIfIdle state ++ [Task.close (some (.batch models skipped))] := by
        rw [if_neg empty]
      exact flowing_of_start rfl start

theorem upgrade_first_ids (indexDb : String) (jobs : List Job) :
    jobIds (QueueState.upgradeFirst indexDb jobs) = jobIds jobs := by
  induction jobs with
  | nil => rfl
  | cons job rest ih =>
    unfold QueueState.upgradeFirst
    split
    · rfl
    · rw [job_ids_cons, ih, job_ids_cons]

theorem find_job_upgrade_first {indexDb : String} {jobs : List Job}
    (isFirst : jobs.find? (QueueState.isMaintenanceFor indexDb) = some job)
    (distinct : (jobIds jobs).Nodup) (id : Int) : findJob (QueueState.upgradeFirst indexDb jobs) id =
      if id = job.queueId then some (QueueState.upgrade job) else findJob jobs id := by
  induction jobs with
  | nil => cases isFirst
  | cons first rest ih =>
    rw [job_ids_cons, List.nodup_cons] at distinct
    unfold QueueState.upgradeFirst
    split
    · rename_i isFor
      rw [List.find?_cons_of_pos isFor] at isFirst
      rw [← Option.some.inj isFirst, find_job_cons, find_job_cons]
      change (if first.queueId = id then _ else _) = _
      by_cases same : first.queueId = id
      · rw [if_pos same, if_pos same.symm]
      · rw [if_neg same, if_neg fun equal => same equal.symm, if_neg same]
    · rename_i other
      rw [List.find?_cons_of_neg other] at isFirst
      rw [find_job_cons, find_job_cons, ih isFirst distinct.2]
      by_cases same : first.queueId = id
      · have later : job.queueId ∈ jobIds rest :=
          List.mem_map_of_mem (List.mem_of_find?_eq_some isFirst)
        have apart : id ≠ job.queueId := fun equal => distinct.1 (by rwa [same, equal])
        rw [if_pos same, if_neg apart, if_pos same]
      · rw [if_neg same, if_neg same]

theorem upgraded_keeps {front slot : List Int} (state : QueueState) (indexDb : String)
    (owed : KeyedMap String ChangeSummary) (kept : state.Kept front slot) (placed : QueueState.Placed front state)
    (isFirst : state.queue.find? (QueueState.isMaintenanceFor indexDb) = some job)
    (next : QueueState) (isNext : next = QueueState.note
      { QueueState.upgradeQueued { state with queue := QueueState.upgradeFirst indexDb state.queue } job
        with owed } (.upgraded (QueueState.upgrade job))) :
    next.Kept front slot ∧ QueueState.Placed front next ∧ next.runningJob = state.runningJob ∧
      next.shuttingDown = state.shuttingDown ∧ next.pendingMarks = state.pendingMarks ∧
      jobIds next.queue = jobIds state.queue := by
  have distinct : (jobIds state.queue).Nodup :=
    (List.pairwise_append.mp kept.order).2.1.imp fun less => Int.ne_of_lt less
  have isQueued : state.queuedJobs.lookup job.queueId = some job := by
    rw [kept.index]
    cases found : findJob state.queue job.queueId with
    | none =>
      have member : job.queueId ∈ jobIds state.queue :=
        List.mem_map_of_mem (List.mem_of_find?_eq_some isFirst)
      rw [← find_job_is_some, found] at member
      cases member
    | some other =>
      have sameId := find_job_id found
      exact congrArg some (List.inj_on_of_nodup_map distinct (find_job_mem found)
        (List.mem_of_find?_eq_some isFirst) sameId)
  have upgraded : QueueState.upgradeQueued
      { state with queue := QueueState.upgradeFirst indexDb state.queue } job =
      { state with
        queue := QueueState.upgradeFirst indexDb state.queue
        queuedJobs := state.queuedJobs.insert job.queueId (QueueState.upgrade job) } := by
    unfold QueueState.upgradeQueued
    dsimp only
    rw [isQueued]
    rfl
  rw [upgraded] at isNext
  subst isNext
  have ids : jobIds (QueueState.upgradeFirst indexDb state.queue) = jobIds state.queue :=
    upgrade_first_ids indexDb state.queue
  have recorded : recordedOutcomes (state.log ++ [.upgraded (QueueState.upgrade job)]) =
      recordedOutcomes state.log := by
    rw [recorded_outcomes_append]
    exact List.append_nil _
  have shed : shedIds (state.log ++ [.upgraded (QueueState.upgrade job)]) = shedIds state.log := by
    rw [shed_ids_append]
    exact List.append_nil _
  refine ⟨⟨?_, kept.bound, fun id => ?_, fun id => ?_, ?_, kept.counter⟩, fun id positive bound => ?_,
    rfl, rfl, rfl, ids⟩
  · change (front ++ jobIds (QueueState.upgradeFirst indexDb state.queue)).Pairwise (· < ·)
    rw [ids]
    exact kept.order
  · change (state.queuedJobs.insert job.queueId (QueueState.upgrade job)).lookup id =
      findJob (QueueState.upgradeFirst indexDb state.queue) id
    rw [KeyedMap.lookup_insert_eq, find_job_upgrade_first isFirst distinct, kept.index]
  · change (jobIds (QueueState.upgradeFirst indexDb state.queue)).count id + slot.count id +
      ((recordedOutcomes (state.log ++ _)).map _).count id + (shedIds (state.log ++ _)).count id = _
    rw [ids, recorded, shed]
    exact kept.counted id
  · change state.outcomes = (recordedOutcomes (state.log ++ _)).drop
      ((recordedOutcomes (state.log ++ _)).length - maxRecentOutcomes)
    rw [recorded]
    exact kept.recent
  · change _ ∨ id ∈ jobIds (QueueState.upgradeFirst indexDb state.queue) ∨
      _ ∈ recordedOutcomes (state.log ++ _) ∨ id ∈ shedIds (state.log ++ _)
    rw [ids, recorded, shed]
    exact placed id positive bound

theorem Steady.enqueue_maintenance (steady : system.Steady) {rest : List QueueMessage}
    {indexDb userDataDb : String} (idle : system.waiting = none) (done : system.tasks = [])
    (mailbox : system.mailbox = .client (.enqueueMaintenance indexDb userDataDb) :: rest) :
    (JobSystem.enqueueMaintenance { system with mailbox := rest } indexDb userDataDb).Steady := by
  have silent := steady.synced.reply_of_idle idle
  have rests := steady.flowing.at_rest idle done
  have noMarks := (steady.marked.at_rest done).2
  unfold JobSystem.enqueueMaintenance
  dsimp only
  split
  · exact steady.grown idle mailbox ⟨⟨rfl, rfl, rfl, rfl, rfl⟩, idle, silent, rfl⟩ (.refl _)
      (Flowing.of_rest rests) (.inl ⟨done, idle, noMarks⟩)
  · split
    · exact steady.grown idle mailbox ⟨⟨rfl, rfl, rfl, rfl, rfl⟩, idle, silent, rfl⟩ (.refl _)
        (Flowing.of_rest rests) (.inl ⟨done, idle, noMarks⟩)
    · split
      · rename_i job isQueued
        have kept := steady.kept
        have placed := steady.placed
        rw [front_of_idle idle] at kept placed
        obtain ⟨newKept, newPlaced, running, shutting, marks, ids⟩ := upgraded_keeps system.state
          indexDb _ kept placed isQueued _ rfl
        refine steady.handled idle mailbox nofun ⟨⟨rfl, rfl, rfl, rfl, rfl⟩, idle, silent, rfl⟩
          running newKept newPlaced (Flowing.of_rest ?_) (.inl ⟨done, idle, marks.trans noMarks⟩)
        rcases rests with isShutting | isRunning | empty
        · exact .inl (shutting.trans isShutting)
        · exact .inr (.inl ((congrArg Option.isSome running).trans isRunning))
        · rw [empty] at isQueued
          cases isQueued
      · refine steady.grown idle mailbox ⟨⟨rfl, rfl, rfl, rfl, rfl⟩, idle, silent, rfl⟩ ?_
          (flowing_of_start rfl rfl)
          (.inr ⟨_, .close _, rfl, rfl⟩)
        have cleared : system.state.MayGrow
            { system.state with owed := system.state.owed.erase indexDb } :=
          .of_same rfl rfl rfl rfl rfl rfl rfl rfl
        exact cleared.trans (QueueState.push_maintenance_grows _ indexDb userDataDb .all false)

variable {suppress : Bool}

theorem Steady.cancel_queued (steady : system.Steady) {rest : List QueueMessage}
    {queueIds : List Int} (idle : system.waiting = none)
    (mailbox : system.mailbox = .client (.cancelQueued queueIds suppress) :: rest) :
    (JobSystem.cancelQueued { system with mailbox := rest } queueIds suppress).Steady := by
  have silent := steady.synced.reply_of_idle idle
  have kept := steady.kept
  have placed := steady.placed
  rw [front_of_idle idle] at kept placed
  obtain ⟨newKept, newPlaced, running, -⟩ :=
    QueueState.cancel_queued_keeps queueIds ⟨none, [], []⟩ system.state kept placed
  unfold JobSystem.cancelQueued
  dsimp only
  rcases cancelled : QueueState.cancelQueued queueIds ⟨none, [], []⟩ system.state with ⟨state, found⟩
  rw [cancelled] at newKept newPlaced running
  dsimp only
  have closing : Task.closeCancel found suppress ∈
      (if found.runningTarget.isSome = true then [Task.cancel suppress] else []) ++
        [.closeCancel found suppress] := List.mem_append_right _ (List.mem_singleton_self _)
  exact steady.handled idle mailbox nofun ⟨⟨rfl, rfl, rfl, rfl, rfl⟩, idle, silent, rfl⟩ running
    newKept newPlaced (.inr (.inr (.inr (.inr ⟨_, closing, rfl⟩)))) (.inr ⟨_, _, rfl, rfl⟩)

theorem Steady.client (steady : system.Steady) {message : ClientMessage}
    {rest : List QueueMessage} (idle : system.waiting = none) (done : system.tasks = [])
    (mailbox : system.mailbox = .client message :: rest) :
    (handle { system with mailbox := rest } (.client message)).Steady := by
  have silent := steady.synced.reply_of_idle idle
  have rests := steady.flowing.at_rest idle done
  cases message with
  | enqueue request => exact steady.enqueue idle done mailbox
  | enqueueBatch requests dedups => exact steady.enqueue_batch idle done mailbox
  | enqueueMaintenance indexDb userDataDb => exact steady.enqueue_maintenance idle done mailbox
  | getQueueStatus =>
    exact steady.grown idle mailbox ⟨⟨rfl, rfl, rfl, rfl, rfl⟩, idle, silent, rfl⟩ (.refl _)
      (Flowing.of_rest rests) (.inr ⟨[], _, rfl, rfl⟩)
  | cancelQueued queueIds suppress => exact steady.cancel_queued idle mailbox
  | cancelRunning suppress =>
    exact steady.grown idle mailbox ⟨⟨rfl, rfl, rfl, rfl, rfl⟩, idle, silent, rfl⟩ (.refl _)
      (Flowing.of_rest rests) (.inr ⟨[_], _, rfl, rfl⟩)
  | recordOwed indexDb summary =>
    have mayGrow := QueueState.record_report_grows system.state indexDb summary
    refine steady.grown idle mailbox ⟨⟨rfl, rfl, rfl, rfl, rfl⟩, idle, silent, rfl⟩ mayGrow
      (Flowing.of_rest ?_) (.inr ⟨[], _, rfl, rfl⟩)
    obtain ⟨added, grows⟩ := mayGrow
    rcases rests with shutting | running | empty
    · exact .inl (grows.shuttingDown.trans shutting)
    · exact .inr (.inl ((congrArg Option.isSome grows.running).trans running))
    · exact .inr (.inr ((QueueState.record_report_queue _ _ _).trans empty))
  | shutdown =>
    have kept := steady.kept
    have placed := steady.placed
    rw [front_of_idle idle] at kept placed
    exact steady.handled idle mailbox nofun ⟨⟨rfl, rfl, rfl, rfl, rfl⟩, idle, silent, rfl⟩ rfl
      kept.shed placed.shed (.inl rfl)
      (.inr ⟨[_], _, rfl, rfl⟩)

theorem flush_of_none {state : QueueState} (none : state.pendingMarks = []) :
    state.flushTagsDirtyMarks = state := by
  rcases state with ⟨queue, queuedJobs, runningJob, outcomes, jobCounter, shuttingDown, owed,
    batchLoaded, pendingMarks, effects, log⟩
  dsimp only at none
  subst none
  unfold QueueState.flushTagsDirtyMarks
  simp

theorem Steady.stale (steady : system.Steady) {rest : List QueueMessage} {queueId : Int}
    {result : JobRunResult} (done : system.tasks = [])
    (other : (system.state.runningJob.map fun job => job.queueId) ≠ some queueId) :
    runnerFinished { system with mailbox := rest } queueId result =
      { system with mailbox := rest } := by
  have flushed := flush_of_none (steady.marked.at_rest done).2
  have same : goOn { system with mailbox := rest } system.state.flushTagsDirtyMarks [] =
      { system with mailbox := rest } := by
    rw [flushed, goOn, ← done]
  unfold runnerFinished
  split
  · exact same
  · rename_i running isRunning
    split
    · rename_i isThis
      refine absurd ?_ other
      change system.state.runningJob = some running at isRunning
      rw [isRunning, ← isThis]
      rfl
    · exact same

theorem Steady.runner_finished (steady : system.Steady) {rest : List QueueMessage} {queueId : Int}
    {result : JobRunResult} (idle : system.waiting = none) (done : system.tasks = [])
    (mailbox : system.mailbox = .runnerFinished queueId result :: rest) :
    (runnerFinished { system with mailbox := rest } queueId result).Steady := by
  have silent := steady.synced.reply_of_idle idle
  have kept := steady.kept
  have placed := steady.placed
  rw [front_of_idle idle] at kept placed
  by_cases isThis : (system.state.runningJob.map fun job => job.queueId) = some queueId
  · obtain ⟨running, isRunning, rfl⟩ := Option.map_eq_some_iff.mp isThis
    have finishes : runnerFinished { system with mailbox := rest } running.queueId result =
        { system with
          state := system.state.finishRunning running result
          tasks := [.startNext, .close none]
          mailbox := rest } := by
      unfold runnerFinished
      dsimp only
      rw [isRunning]
      dsimp only
      rw [if_pos rfl]
      rfl
    rw [finishes]
    have wasHanded : system.handed = some running.queueId := by
      rw [handed_of_idle idle, isRunning]
      rfl
    have mayGrow := QueueState.finish_running_grows system.state running result
    have stops : (system.state.finishRunning running result).runningJob = none := by
      obtain ⟨added, grows⟩ := mayGrow
      exact grows.running
    have isHanded : ∀ next : JobSystem, next.waiting = none → next.state.runningJob = none →
        next.handed = none := by
      intro next isIdle isNone
      rw [handed_of_idle isIdle, isNone]
      rfl
    have notRunning : system.runnerRunning ≠ some running.queueId :=
      (steady.synced.finished running.queueId result (by rw [mailbox]; exact List.mem_cons_self)).1
    rw [slot_of_idle idle, isRunning] at kept
    refine ⟨?_, ?_, ?_, .inr (.inr (.inr (.inr ⟨.startNext, List.mem_cons_self, rfl⟩))),
      .inr ⟨[_], _, rfl, rfl⟩⟩
    · rw [front_of_idle (by exact idle), slot_of_idle (by exact idle)]
      dsimp only
      rw [stops]
      have recorded : QueueState.Kept system.started []
          { system.state.recordOutcome running.queueId
            (if result.success then .completed else .failed) result.error with runningJob := none } := by
        have outcome := kept.record_outcome (if result.success then .completed else .failed) result.error
        exact ⟨outcome.order, outcome.bound, outcome.index, outcome.counted,
          outcome.recent, outcome.counter⟩
      exact recorded.grows mayGrow
    · rw [front_of_idle (by exact idle)]
      have recorded : QueueState.Placed system.started
          { system.state.recordOutcome running.queueId
            (if result.success then .completed else .failed) result.error with runningJob := none } :=
        placed.record_outcome running.queueId _ result.error
      exact recorded.grows mayGrow
    · refine steady.synced.advance ⟨rfl, rfl, rfl, rfl, rfl⟩ rfl ?_ ?_ (fun id run => ?_)
        (fun id handedId => ?_) (fun later member => ?_) (fun id other handedId => ?_)
      · exact steady.synced.reply
      · rw [WaitFits]
        dsimp only
        rw [idle]
        trivial
      · have was := steady.synced.runner id run
        rw [wasHanded] at was
        rw [← Option.some.inj was] at run
        exact absurd run notRunning
      · rw [isHanded _ (by exact idle) stops] at handedId
        cases handedId
      · rw [mailbox]
        exact List.mem_cons_of_mem _ member
      · rw [isHanded _ (by exact idle) stops] at handedId
        cases handedId
  · rw [steady.stale done isThis]
    refine steady.handled idle mailbox ?_ ⟨⟨rfl, rfl, rfl, rfl, rfl⟩, idle, silent, rfl⟩ rfl kept placed
      steady.flowing steady.marked
    intro id other isMessage isHanded
    cases isMessage
    rw [handed_of_idle idle] at isHanded
    exact isThis isHanded

theorem Steady.handle (steady : system.Steady) {message : QueueMessage}
    {rest : List QueueMessage} (idle : system.waiting = none) (done : system.tasks = [])
    (mailbox : system.mailbox = message :: rest) :
    (JobSystem.handle { system with mailbox := rest } message).Steady := by
  cases message with
  | client message => exact steady.client idle done mailbox
  | runnerFinished queueId result => exact steady.runner_finished idle done mailbox

theorem Steady.performed (steady : system.Steady) (idle : system.waiting = none)
    (apart : Apart system next) (waiting : next.waiting = none) (reply : next.reply = none)
    (mailbox : next.mailbox = system.mailbox) (mayGrow : system.state.MayGrow next.state)
    (flowing : next.Flowing) (marked : next.Marked) : next.Steady := by
  have running : next.state.runningJob = system.state.runningJob := by
    obtain ⟨added, grows⟩ := mayGrow
    exact grows.running
  have sameFront : next.front = system.front := by
    rw [front_of_idle waiting, front_of_idle idle, apart.started]
  have sameSlot : next.slot = system.slot := by
    rw [slot_of_idle waiting, slot_of_idle idle, running]
  refine ⟨?_, ?_, ?_, flowing, marked⟩
  · rw [sameFront, sameSlot]
    exact steady.kept.grows mayGrow
  · rw [sameFront]
    exact steady.placed.grows mayGrow
  · refine steady.synced.apart apart (waiting.trans idle.symm)
      (reply.trans (steady.synced.reply_of_idle idle).symm) running (fun message member => ?_)
      (fun id result isHanded member => ?_)
    · exact mailbox ▸ member
    · exact mailbox ▸ member

variable {task : Task}

theorem Flowing.rest (flowing : system.Flowing) {rest : List Task}
    (tasks : system.tasks = task :: rest) (other : restarts task = false)
    (idle : system.waiting = none) (isTasks : next.tasks = rest)
    (shutting : next.state.shuttingDown = system.state.shuttingDown)
    (running : next.state.runningJob = system.state.runningJob)
    (queue : next.state.queue = system.state.queue) : next.Flowing := by
  rcases flowing with isShutting | isRunning | empty | ⟨job, waits⟩ | ⟨later, member, isRestart⟩
  · exact .inl (shutting.trans isShutting)
  · exact .inr (.inl ((congrArg Option.isSome running).trans isRunning))
  · exact .inr (.inr (.inl (queue.trans empty)))
  · rw [idle] at waits
    cases waits
  · rw [tasks] at member
    rcases List.mem_cons.mp member with isThis | isLater
    · rw [isThis, other] at isRestart
      cases isRestart
    · exact .inr (.inr (.inr (.inr ⟨later, isTasks ▸ isLater, isRestart⟩)))

theorem Marked.rest (marked : system.Marked) {rest : List Task} (tasks : system.tasks = task :: rest) :
    (rest = [] ∧ closes task = true) ∨ ∃ before last, rest = before ++ [last] ∧ closes last = true := by
  rcases marked with ⟨none, -⟩ | ⟨before, last, isTasks, isClose⟩
  · rw [none] at tasks
    cases tasks
  · rw [tasks] at isTasks
    cases before with
    | nil =>
      cases isTasks
      exact .inl ⟨rfl, isClose⟩
    | cons first others =>
      cases isTasks
      exact .inr ⟨others, last, rfl, isClose⟩

theorem Marked.go_on (marked : system.Marked) {rest : List Task}
    (tasks : system.tasks = task :: rest) (other : closes task = false)
    (isTasks : next.tasks = rest) : next.Marked := by
  rcases marked.rest tasks with ⟨-, isClose⟩ | ⟨before, last, isRest, isClose⟩
  · rw [other] at isClose
    cases isClose
  · exact .inr ⟨before, last, isTasks.trans isRest, isClose⟩

theorem Marked.flushed (marked : system.Marked) {rest : List Task}
    (tasks : system.tasks = task :: rest) (isTasks : next.tasks = rest)
    (idle : next.waiting = none) (marks : next.state.pendingMarks = []) : next.Marked := by
  rcases marked.rest tasks with ⟨none, -⟩ | ⟨before, last, isRest, isClose⟩
  · exact .inl ⟨isTasks.trans none, idle, marks⟩
  · exact .inr ⟨before, last, isTasks.trans isRest, isClose⟩

theorem Marked.resumed (marked : system.Marked) (waits : system.waiting ≠ none) (more : List Task)
    (isTasks : next.tasks = more ++ system.tasks) : next.Marked := by
  rcases marked with ⟨-, idle, -⟩ | ⟨before, last, tasks, isClose⟩
  · exact absurd idle waits
  · refine .inr ⟨more ++ before, last, ?_, isClose⟩
    rw [isTasks, tasks, List.append_assoc]

theorem Steady.start_next (steady : system.Steady) {rest : List Task} (idle : system.waiting = none)
    (tasks : system.tasks = .startNext :: rest) : (startNext { system with tasks := rest }).Steady := by
  have silent := steady.synced.reply_of_idle idle
  have still (flowing : ({ system with tasks := rest } : JobSystem).Flowing) :
      ({ system with tasks := rest } : JobSystem).Steady :=
    steady.performed idle ⟨rfl, rfl, rfl, rfl, rfl⟩ idle silent rfl (.refl _) flowing
      (steady.marked.go_on tasks rfl rfl)
  unfold startNext
  split
  · rename_i busy
    refine still ?_
    rcases Bool.or_eq_true _ _ ▸ busy with shutting | running
    · exact .inl shutting
    · exact .inr (.inl running)
  · rename_i free
    split
    · rename_i empty
      exact still (.inr (.inr (.inl empty)))
    · rename_i job behind queue
      change system.state.queue = job :: behind at queue
      have noneRuns : system.state.runningJob = none := by
        cases running : system.state.runningJob with
        | none => rfl
        | some other => exact absurd (by simp [running]) free
      have kept := steady.kept
      have placed := steady.placed
      rw [front_of_idle idle] at kept placed
      rw [slot_of_idle idle, noneRuns] at kept
      have isFront : (ask { system with
            state := { system.state with
              queue := behind, queuedJobs := system.state.queuedJobs.erase job.queueId }
            tasks := rest } (.runJob job) (.starting job)).front = system.started ++ [job.queueId] := by
        rw [front, unstarted]
        unfold ask
        dsimp only
        rw [silent]
      refine ⟨?_, ?_, ?_, .inr (.inr (.inr (.inl ⟨job, rfl⟩))), steady.marked.go_on tasks rfl rfl⟩
      · rw [isFront]
        exact kept.pop queue
      · rw [isFront]
        exact placed.pop queue
      · exact steady.synced.ask_start
          { system with
            state := { system.state with
              queue := behind, queuedJobs := system.state.queuedJobs.erase job.queueId }
            tasks := rest }
          ⟨rfl, rfl, rfl, rfl, rfl⟩ idle silent noneRuns noneRuns rfl job

theorem Steady.cancel_running (steady : system.Steady) {rest : List Task}
    (idle : system.waiting = none) (tasks : system.tasks = .cancel suppress :: rest) :
    (cancelRunning { system with tasks := rest } suppress).Steady := by
  have silent := steady.synced.reply_of_idle idle
  unfold cancelRunning
  split
  · exact steady.performed idle ⟨rfl, rfl, rfl, rfl, rfl⟩ idle silent rfl (.refl _)
      (steady.flowing.rest tasks rfl idle rfl rfl rfl rfl) (steady.marked.go_on tasks rfl rfl)
  · rename_i running isRunning
    have isFront : (ask { system with tasks := rest } .cancelRunning
        (.cancelling running suppress)).front = system.front := by
      rw [front_of_idle idle, front, unstarted]
      exact List.append_nil _
    have isSlot : (ask { system with tasks := rest } .cancelRunning
        (.cancelling running suppress)).slot = system.slot := by
      rw [slot_of_idle idle, slot]
      rfl
    refine ⟨?_, ?_, ?_, .inr (.inl ?_), steady.marked.go_on tasks rfl rfl⟩
    · rw [isFront, isSlot]
      exact steady.kept
    · rw [isFront]
      exact steady.placed
    · exact steady.synced.ask_cancel { system with tasks := rest } ⟨rfl, rfl, rfl, rfl, rfl⟩ idle
        silent isRunning isRunning rfl suppress
    · change system.state.runningJob.isSome = true
      change system.state.runningJob = some running at isRunning
      rw [isRunning]
      rfl

theorem Steady.perform (steady : system.Steady) {rest : List Task}
    (idle : system.waiting = none) (tasks : system.tasks = task :: rest) :
    (JobSystem.perform { system with tasks := rest } task).Steady := by
  have silent := steady.synced.reply_of_idle idle
  cases task with
  | startNext => exact steady.start_next idle tasks
  | cancel suppress => exact steady.cancel_running idle tasks
  | closeCancel found suppress =>
    refine steady.performed idle ⟨rfl, rfl, rfl, rfl, rfl⟩ idle silent rfl
      ((QueueState.boundaries_grows suppress found.removed system.state).trans
        (QueueState.unload_grows _))
      (.inr (.inr (.inr (.inr ⟨.startNext, List.mem_cons_self, rfl⟩)))) ?_
    rcases steady.marked.rest tasks with ⟨rfl, -⟩ | ⟨before, last, rfl, isClose⟩
    · exact .inr ⟨[_], _, rfl, rfl⟩
    · exact .inr ⟨.startNext :: _ :: before, last, rfl, isClose⟩
  | closeCancelRunning =>
    exact steady.performed idle ⟨rfl, rfl, rfl, rfl, rfl⟩ idle silent rfl
      (QueueState.flush_grows _) (steady.flowing.rest tasks rfl idle rfl rfl rfl rfl)
      (steady.marked.flushed tasks rfl idle rfl)
  | closeShutdown =>
    have mayGrow := QueueState.unload_grows system.state
    have queue : system.state.maybeUnloadBatchModel.queue = system.state.queue := by
      unfold QueueState.maybeUnloadBatchModel
      split
      · rfl
      · split
        · rfl
        · split <;> rfl
    have same : system.state.maybeUnloadBatchModel.shuttingDown = system.state.shuttingDown ∧
        system.state.maybeUnloadBatchModel.runningJob = system.state.runningJob := by
      obtain ⟨added, grows⟩ := mayGrow
      exact ⟨grows.shuttingDown, grows.running⟩
    exact steady.performed idle ⟨rfl, rfl, rfl, rfl, rfl⟩ idle silent rfl
      (mayGrow.trans (QueueState.flush_grows _))
      (steady.flowing.rest tasks rfl idle rfl same.1 same.2 queue)
      (steady.marked.flushed tasks rfl idle rfl)
  | close answer =>
    exact steady.performed idle ⟨rfl, rfl, rfl, rfl, rfl⟩ idle silent rfl
      (QueueState.flush_grows _) (steady.flowing.rest tasks rfl idle rfl rfl rfl rfl)
      (steady.marked.flushed tasks rfl idle rfl)

theorem Steady.accepted (steady : system.Steady)
    (waits : system.waiting = some (.starting job)) (replied : system.reply = some .accepted) :
    ({ system with
      state := { system.state with runningJob := some job }
      waiting := none, reply := none } : JobSystem).Steady := by
  have wasFront : system.front = system.started := by
    rw [front, unstarted, waits, replied, List.append_nil]
  have wasHanded : system.handed = some job.queueId := by rw [handed, waits, replied]
  have kept := steady.kept
  have placed := steady.placed
  rw [wasFront] at kept placed
  rw [slot, waits] at kept
  refine ⟨?_, ?_, ?_, .inr (.inl rfl), steady.marked.resumed (by simp [waits]) [] rfl⟩
  · rw [front_of_idle rfl, slot_of_idle rfl]
    exact ⟨kept.order, kept.bound, kept.index, kept.counted, kept.recent, kept.counter⟩
  · rw [front_of_idle rfl]
    exact placed
  · refine steady.synced.replied ⟨rfl, rfl, rfl, rfl, rfl⟩ rfl rfl ?_ rfl ((handed_of_idle rfl).trans wasHanded.symm)
    rw [expected, waits, replied]

theorem Steady.confirmed (steady : system.Steady) {running : Job}
    (waits : system.waiting = some (.cancelling running suppress))
    (replied : system.reply = some (.cancelled (some running.queueId))) :
    ({ system with
      state := system.state.confirmCancel running suppress
      tasks := .startNext :: system.tasks
      waiting := none, reply := none
      confirmed := some running.queueId } : JobSystem).Steady := by
  have wasFront : system.front = system.started := by
    rw [front, unstarted, waits, List.append_nil]
  have wasHanded : system.handed = none := by rw [handed, waits, replied]
  have wait := steady.synced.wait
  rw [WaitFits, waits] at wait
  have kept := steady.kept
  have placed := steady.placed
  rw [wasFront] at kept placed
  rw [slot, waits] at kept
  dsimp only at kept wait
  rw [wait] at kept
  have mayGrow := QueueState.confirm_cancel_grows system.state running suppress
  have stops : (system.state.confirmCancel running suppress).runningJob = none := by
    obtain ⟨added, grows⟩ := mayGrow
    exact grows.running
  have recorded : QueueState.Kept system.started []
      ({ system.state with runningJob := none }.recordOutcome running.queueId .cancelled none) := by
    have outcome := kept.record_outcome .cancelled none
    exact ⟨outcome.order, outcome.bound, outcome.index, outcome.counted,
      outcome.recent, outcome.counter⟩
  have placedThen : QueueState.Placed system.started
      ({ system.state with runningJob := none }.recordOutcome running.queueId .cancelled none) :=
    placed.record_outcome running.queueId .cancelled none
  refine ⟨?_, ?_, ?_, .inr (.inr (.inr (.inr ⟨.startNext, List.mem_cons_self, rfl⟩))), ?_⟩
  · rw [front_of_idle rfl, slot_of_idle rfl]
    dsimp only
    rw [stops]
    exact recorded.grows mayGrow
  · rw [front_of_idle rfl]
    exact placedThen.grows mayGrow
  · refine steady.synced.replied ⟨rfl, rfl, rfl, rfl, rfl⟩ rfl rfl ?_ rfl ?_
    · rw [expected, waits, replied]
    · rw [handed_of_idle rfl, wasHanded]
      exact congrArg (Option.map fun job => job.queueId) stops
  · exact steady.marked.resumed (by simp [waits]) [.startNext] rfl

theorem Steady.unconfirmed (steady : system.Steady) {running : Job}
    (waits : system.waiting = some (.cancelling running suppress))
    (replied : system.reply = some (.cancelled none)) :
    ({ system with waiting := none, reply := none, confirmed := none } : JobSystem).Steady := by
  have wait := steady.synced.wait
  rw [WaitFits, waits] at wait
  have wasFront : system.front = system.started := by
    rw [front, unstarted, waits, List.append_nil]
  have wasSlot : system.slot = (system.state.runningJob.map fun job => job.queueId).toList := by
    rw [slot, waits]
  have wasHanded : system.handed = system.state.runningJob.map fun job => job.queueId := by
    rw [handed, waits, replied]
  have kept := steady.kept
  have placed := steady.placed
  rw [wasFront] at kept placed
  rw [wasSlot] at kept
  refine ⟨?_, ?_, ?_, .inr (.inl ?_), steady.marked.resumed (by simp [waits]) [] rfl⟩
  · rw [front_of_idle rfl, slot_of_idle rfl]
    exact kept
  · rw [front_of_idle rfl]
    exact placed
  · refine steady.synced.replied ⟨rfl, rfl, rfl, rfl, rfl⟩ rfl rfl ?_ rfl ((handed_of_idle rfl).trans wasHanded.symm)
    rw [expected, waits, replied]
  · exact congrArg Option.isSome wait

theorem Steady.resume (steady : system.Steady) {waiting : Waiting} {reply : RunnerReply}
    (waits : system.waiting = some waiting) (replied : system.reply = some reply) :
    (JobSystem.resume { system with waiting := none, reply := none } waiting reply).Steady := by
  have fits := steady.synced.reply
  rw [ReplyFits, waits, replied] at fits
  cases waiting with
  | starting job =>
    dsimp only at fits
    subst fits
    exact steady.accepted waits replied
  | cancelling running suppress =>
    rcases fits with rfl | rfl
    · exact steady.unconfirmed waits replied
    · unfold JobSystem.resume
      dsimp only
      rw [if_pos rfl]
      exact steady.confirmed waits replied

theorem Steady.queue_turn (steady : system.Steady) : system.queueTurn.Steady := by
  unfold queueTurn
  split
  · rename_i waiting waits
    split
    · rename_i reply replied
      exact steady.resume waits replied
    · exact steady
  · rename_i idle
    split
    · rename_i task rest tasks
      exact steady.perform idle tasks
    · rename_i done
      split
      · rename_i message rest mailbox
        exact steady.handle idle done mailbox
      · exact steady

theorem Steady.step (steady : system.Steady) (event : JobEvent) : (system.step event).Steady := by
  cases event with
  | post message =>
    exact ⟨steady.kept, steady.placed, steady.synced.post message, steady.flowing, steady.marked⟩
  | queueTurn => exact steady.queue_turn
  | runnerTurn => exact steady.runner_turn
  | jobEnds queueId result => exact steady.job_ends queueId result

end JobSystem

theorem steady_init : jobMachine.init.Steady := by
  refine ⟨⟨List.Pairwise.nil, nofun, fun id => ?_, fun id => ?_, List.drop_nil.symm, Int.le_refl _⟩,
    fun id positive bound => ?_, ⟨rfl, trivial, trivial, nofun, nofun, nofun, nofun,
    rfl, nofun⟩, .inr (.inr (.inl rfl)), .inl ⟨rfl, rfl, rfl⟩⟩
  · change (∅ : KeyedMap Int Job).lookup id = findJob [] id
    simp [findJob]
  · change 0 = if 0 < id ∧ id ≤ 0 then 1 else 0
    rw [if_neg (by omega)]
  · change id ≤ 0 at bound
    omega

theorem steady_run (events : List JobEvent) : (jobMachine.run events).Steady :=
  jobMachine.run_invariant JobSystem.Steady (fun _ _ => True) steady_init
    (fun _ event _ steady => steady.step event) events
    (Machine.admitted_run_of_forall jobMachine fun _ _ => trivial)

namespace JobSystem

/-- Between two messages of the queue. -/
def AtRest (system : JobSystem) : Prop := system.tasks = [] ∧ system.waiting = none

/-- The id of a job is at one place, and at none before it is given out. -/
structure Conserved (system : JobSystem) : Prop where
  /-- The runner refused no job. -/
  accepted : system.rejected = []
  /-- Each job starts once and in the order of the queue, before the ones still queued. -/
  order : (system.started ++ system.unstarted ++ jobIds system.state.queue).Pairwise (· < ·)
  /-- A job that was passed over was cancelled or shed while it was queued. -/
  passed : ∀ id other, 0 < id → id < other → other ∈ system.started → id ∈ system.started ∨
    JobOutcome.mk id .cancelled none ∈ recordedOutcomes system.state.log ∨
      id ∈ shedIds system.state.log
  /-- The index finds what the queue holds. -/
  index : ∀ id, system.state.queuedJobs.lookup id = findJob system.state.queue id
  /-- A job that left the queue and the slot was shed, or has one outcome. -/
  counted : ∀ id, (jobIds system.state.queue).count id + system.slot.count id +
    (recordedIds system.state.log).count id + (shedIds system.state.log).count id =
      if 0 < id ∧ id ≤ system.state.jobCounter then 1 else 0
  recent : system.state.outcomes = (recordedOutcomes system.state.log).drop
    ((recordedOutcomes system.state.log).length - maxRecentOutcomes)
  /-- The end of a job that is not the running one changes nothing. -/
  stale : ∀ queueId result rest, system.AtRest →
    system.mailbox = .runnerFinished queueId result :: rest →
    (system.state.runningJob.map fun job => job.queueId) ≠ some queueId →
    system.step .queueTurn = { system with mailbox := rest }
  flowing : system.AtRest → system.state.shuttingDown = false →
    system.state.runningJob = none → system.state.queue = []
  /-- The end of a running job is still to come. -/
  reporting : system.AtRest → ∀ job, system.state.runningJob = some job →
    system.Reporting job.queueId

variable {system : JobSystem}

theorem Steady.passed (steady : system.Steady) {id other : Int} (positive : 0 < id)
    (less : id < other) (isStarted : other ∈ system.started) : id ∈ system.started ∨
      JobOutcome.mk id .cancelled none ∈ recordedOutcomes system.state.log ∨
        id ∈ shedIds system.state.log := by
  have inFront : other ∈ system.front := List.mem_append_left _ isStarted
  have bound := steady.kept.bound other inFront
  have order := steady.kept.order
  rw [front] at order
  obtain ⟨fronts, -, behind⟩ := List.pairwise_append.mp order
  rcases steady.placed id positive (by omega) with isFront | queued | gone
  · rcases List.mem_append.mp isFront with started | onItsWay
    · exact .inl started
    · have after := (List.pairwise_append.mp fronts).2.2 other isStarted id onItsWay
      omega
  · have after := behind other inFront id queued
    omega
  · exact .inr gone

theorem Steady.conserved (steady : system.Steady) : system.Conserved := by
  refine ⟨steady.synced.rejected, steady.kept.order, fun id other => steady.passed,
    steady.kept.index, steady.kept.counted, steady.kept.recent, ?_, ?_, ?_⟩
  · rintro queueId result rest ⟨done, idle⟩ mailbox other
    have turns : system.step .queueTurn =
        runnerFinished { system with mailbox := rest } queueId result := by
      change system.queueTurn = _
      unfold queueTurn
      rw [idle, done, mailbox]
      rfl
    rw [turns]
    exact steady.stale done other
  · rintro ⟨done, idle⟩ open_ stopped
    rcases steady.flowing.at_rest idle done with shutting | running | empty
    · rw [open_] at shutting
      cases shutting
    · rw [stopped] at running
      cases running
    · exact empty
  · rintro ⟨done, idle⟩ job running
    refine steady.synced.reporting job.queueId ?_
    rw [handed_of_idle idle, running]
    rfl

end JobSystem

theorem run_conserved (events : List JobEvent) : (jobMachine.run events).Conserved :=
  (steady_run events).conserved

end Panoptikon.Jobs
