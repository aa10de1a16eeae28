import Panoptikon.Jobs.Cron
import Panoptikon.Jobs.Settlement

/-!
# Enqueuing a merged batch

Batches are enqueued at a queue where nothing else is under way, with the queue's
and the runner's turns in any order. What they leave depends on the requests they
bring and not on the batches they come in.
-/

namespace Panoptikon.Jobs

open Foundation Foundation.KeyedSort

structure EnqueuedBatch where
  requests : List JobRequest
  dedups : List BatchDedup

def EnqueuedBatch.message (batch : EnqueuedBatch) : ClientMessage := .enqueueBatch batch.requests batch.dedups

/-- The databases whose requests the jobs hold back. -/
def Blocked (jobs : List JobRequest) (dedups : List BatchDedup) (indexDb : String) : Prop :=
  ∃ dedup ∈ dedups, dedup.indexDb = indexDb ∧ ∃ job ∈ jobs, job.tag = some dedup.tag ∧ job.indexDb = indexDb

instance (jobs : List JobRequest) (dedups : List BatchDedup) (indexDb : String) :
    Decidable (Blocked jobs dedups indexDb) := by
  unfold Blocked
  infer_instance

/-- What is there after a batch. -/
def afterBatch (closed : Bool) (jobs : List JobRequest) (batch : EnqueuedBatch) : List JobRequest :=
  if closed then jobs
  else jobs ++ batch.requests.filter fun request => ¬Blocked jobs batch.dedups request.indexDb

theorem blocked_perm {first second : List JobRequest} (same : first.Perm second) (dedups : List BatchDedup)
    (indexDb : String) : Blocked first dedups indexDb ↔ Blocked second dedups indexDb := by
  constructor
  · rintro ⟨dedup, member, isDb, job, isJob, tagged⟩
    exact ⟨dedup, member, isDb, job, same.mem_iff.mp isJob, tagged⟩
  · rintro ⟨dedup, member, isDb, job, isJob, tagged⟩
    exact ⟨dedup, member, isDb, job, same.mem_iff.mpr isJob, tagged⟩

namespace QueueState

theorem mem_skipped_dbs (state : QueueState) (dedups : List BatchDedup) (skipped : List String) (indexDb : String) :
    indexDb ∈ state.skippedDbs dedups skipped ↔
      indexDb ∈ skipped ∨ Blocked (state.present.map Job.toJobRequest) dedups indexDb := by
  have cons_iff (dedup : BatchDedup) (rest : List BatchDedup) :
      Blocked (state.present.map Job.toJobRequest) (dedup :: rest) indexDb ↔
        (dedup.indexDb = indexDb ∧ state.conflicts dedup = true) ∨
          Blocked (state.present.map Job.toJobRequest) rest indexDb := by
    unfold Blocked
    rw [List.exists_mem_cons_iff, conflicts, List.any_eq_true]
    apply or_congr_left
    apply and_congr_right
    rintro rfl
    constructor
    · rintro ⟨request, member, tagged, isDb⟩
      obtain ⟨job, isJob, rfl⟩ := List.mem_map.mp member
      exact ⟨job, isJob, by simp [tagged, isDb]⟩
    · rintro ⟨job, isJob, both⟩
      rw [Bool.and_eq_true, decide_eq_true_eq, decide_eq_true_eq] at both
      exact ⟨job.toJobRequest, List.mem_map.mpr ⟨job, isJob, rfl⟩, both⟩
  induction dedups generalizing skipped with
  | nil =>
    rw [skippedDbs, or_iff_left]
    rintro ⟨dedup, absent, -⟩
    cases absent
  | cons dedup rest ih =>
    rw [skippedDbs, cons_iff]
    split
    · rename_i conflicts
      apply (ih _).trans
      rw [List.mem_append, List.mem_singleton, or_assoc]
      apply or_congr_right
      apply or_congr_left
      rw [Bool.and_eq_true] at conflicts
      rw [and_iff_left conflicts.1, eq_comm]
    · rename_i passes
      apply (ih _).trans
      rw [← or_assoc]
      apply or_congr_left
      rw [Bool.and_eq_true, not_and] at passes
      constructor
      · exact .inl
      · rintro (inside | ⟨rfl, conflicts⟩)
        · exact inside
        · have inside := passes conflicts
          rw [Bool.not_eq_true, Bool.not_eq_false', List.contains_iff_mem] at inside
          exact inside

theorem push_jobs_fields (requests : List JobRequest) (state : QueueState) :
    (pushJobs requests state).1.shuttingDown = state.shuttingDown ∧
      (pushJobs requests state).1.runningJob = state.runningJob ∧
      (pushJobs requests state).1.present.map Job.toJobRequest =
        state.present.map Job.toJobRequest ++ requests := by
  induction requests generalizing state with
  | nil => exact ⟨rfl, rfl, (List.append_nil _).symm⟩
  | cons request rest ih =>
    obtain ⟨shutting, running, present⟩ := ih (state.pushJob request).1
    refine ⟨shutting, running, present.trans ?_⟩
    have appended : (state.pushJob request).1.present = state.present ++ [(state.append request).2] :=
      (List.append_assoc _ _ _).symm
    rw [appended, List.map_append, List.append_assoc]
    rfl

end QueueState

/-- Events that post these messages and are turns otherwise. -/
inductive Delivers : List JobEvent → List ClientMessage → Prop where
  | done : Delivers [] []
  | post {events : List JobEvent} {messages : List ClientMessage} (message : ClientMessage)
      (later : Delivers events messages) : Delivers (.post message :: events) (message :: messages)
  | queueTurn {events : List JobEvent} {messages : List ClientMessage} (later : Delivers events messages) :
      Delivers (.queueTurn :: events) messages
  | runnerTurn {events : List JobEvent} {messages : List ClientMessage} (later : Delivers events messages) :
      Delivers (.runnerTurn :: events) messages

namespace JobSystem

/-- Nothing is under way between the queue and the runner. -/
structure Quiet (system : JobSystem) : Prop where
  mailbox : system.mailbox = []
  tasks : system.tasks = []
  waiting : system.waiting = none
  runnerMailbox : system.runnerMailbox = []

/-- What was asked for and is not over: queued, running, or on its way to the runner. -/
def held (system : JobSystem) : List JobRequest :=
  (starting system.waiting ++ system.state.present).map Job.toJobRequest

structure Serving (closed : Bool) (jobs : List JobRequest) (pending : List EnqueuedBatch) (system : JobSystem) :
    Prop where
  steady : system.Steady
  closed : system.state.shuttingDown = closed
  mailbox : system.mailbox = pending.map fun batch => .client batch.message
  tasks : ∀ task ∈ system.tasks, task = .startNext ∨ ∃ answer, task = .close answer
  waiting : system.waiting = none ∨ ∃ job, system.waiting = some (.starting job)
  requests : ∀ message ∈ system.runnerMailbox, isRequest message = true
  held : system.held.Perm jobs

variable {system : JobSystem} {closed : Bool} {jobs : List JobRequest} {pending : List EnqueuedBatch}
  {batch : EnqueuedBatch}

theorem Serving.resumed (serving : Serving closed jobs pending system) {job : Job} {reply : RunnerReply}
    (waits : system.waiting = some (.starting job)) (replied : system.reply = some reply) :
    Serving closed jobs pending (resume { system with waiting := none, reply := none } (.starting job) reply) := by
  have fits := serving.steady.synced.reply
  have wait := serving.steady.synced.wait
  rw [ReplyFits, waits, replied] at fits
  rw [WaitFits, waits] at wait
  dsimp only at fits wait
  have steady := serving.steady.resume waits replied
  subst fits
  refine ⟨steady, serving.closed, serving.mailbox, serving.tasks, .inl rfl, serving.requests, ?_⟩
  have was := serving.held
  rw [JobSystem.held, waits, starting, QueueState.present, wait] at was
  exact was

theorem Serving.performed (serving : Serving closed jobs pending system) (idle : system.waiting = none)
    {task : Task} {rest : List Task} (tasks : system.tasks = task :: rest) :
    Serving closed jobs pending (perform { system with tasks := rest } task) := by
  have steady := serving.steady.perform idle tasks
  have left : ∀ task ∈ rest, task = .startNext ∨ ∃ answer, task = .close answer := by
    intro other member
    exact serving.tasks other (by rw [tasks]; exact List.mem_cons_of_mem _ member)
  have was := serving.held
  rw [JobSystem.held, idle, starting, List.nil_append] at was
  rcases serving.tasks task (by rw [tasks]; exact List.mem_cons_self) with rfl | ⟨answer, rfl⟩
  · rw [perform] at steady ⊢
    unfold startNext at steady ⊢
    split
    · rename_i blocked
      rw [if_pos blocked] at steady
      exact ⟨steady, serving.closed, serving.mailbox, left, .inl idle, serving.requests, serving.held⟩
    · rename_i free
      rw [if_neg free] at steady
      dsimp only at steady ⊢
      split
      · rename_i empty
        rw [empty] at steady
        exact ⟨steady, serving.closed, serving.mailbox, left, .inl idle, serving.requests, serving.held⟩
      · rename_i job queue isQueue
        rw [isQueue] at steady
        rw [Bool.or_eq_true, not_or, Bool.not_eq_true, Bool.not_eq_true, Option.isSome_eq_false_iff,
          Option.isNone_iff_eq_none] at free
        refine ⟨steady, serving.closed, serving.mailbox, left, .inr ⟨job, rfl⟩, ?_, ?_⟩
        · intro message member
          rcases List.mem_append.mp member with before | last
          · exact serving.requests message before
          · rw [List.mem_singleton.mp last]
            rfl
        · rw [QueueState.present, free.2, isQueue] at was
          change (List.map Job.toJobRequest ([job] ++ (system.state.runningJob.toList ++ queue))).Perm jobs
          rw [free.2]
          exact was
  · refine ⟨steady, serving.closed, serving.mailbox, left, .inl idle, serving.requests, ?_⟩
    change (List.map Job.toJobRequest (starting system.waiting ++ system.state.present)).Perm jobs
    exact serving.held

theorem Serving.handled (serving : Serving closed jobs (batch :: pending) system) (idle : system.waiting = none)
    (done : system.tasks = []) {rest : List QueueMessage}
    (mailbox : system.mailbox = .client batch.message :: rest) :
    Serving closed (afterBatch closed jobs batch) pending (handle { system with mailbox := rest }
      (.client batch.message)) := by
  have steady := serving.steady.handle idle done mailbox
  have isRest : rest = pending.map fun batch => .client batch.message := by
    have both := mailbox.symm.trans serving.mailbox
    rw [List.map_cons] at both
    exact (List.cons.inj both).2
  have noTasks : ∀ task ∈ system.tasks, task = .startNext ∨ ∃ answer, task = .close answer := serving.tasks
  have was : (system.state.present.map Job.toJobRequest).Perm jobs := by
    have held := serving.held
    rw [JobSystem.held, idle, starting, List.nil_append] at held
    exact held
  rw [EnqueuedBatch.message, handle] at steady ⊢
  unfold enqueueBatch at steady ⊢
  dsimp only at steady ⊢
  split
  · rename_i shutting
    rw [if_pos shutting] at steady
    refine ⟨steady, serving.closed, isRest, noTasks, .inl idle, serving.requests, ?_⟩
    rw [afterBatch, if_pos (serving.closed.symm.trans shutting)]
    exact serving.held
  · rename_i running
    rw [if_neg running] at steady
    obtain ⟨shutting, -, present⟩ := QueueState.push_jobs_fields
      (batch.requests.filter fun request => !(system.state.skippedDbs batch.dedups []).contains request.indexDb)
      system.state
    refine ⟨steady, shutting.trans serving.closed, isRest, ?_, .inl idle, serving.requests, ?_⟩
    · intro task member
      rcases List.mem_append.mp member with start | close
      · split at start
        · cases start
        · unfold startIfIdle at start
          split at start
          · exact .inl (List.mem_singleton.mp start)
          · cases start
      · exact .inr ⟨_, List.mem_singleton.mp close⟩
    · change (List.map Job.toJobRequest (starting system.waiting ++
        (QueueState.pushJobs _ system.state).1.present)).Perm _
      rw [idle, starting, List.nil_append, present, afterBatch, if_neg (by rw [← serving.closed]; exact running)]
      have sameFilter : (fun request : JobRequest =>
          !(system.state.skippedDbs batch.dedups []).contains request.indexDb) =
          fun request => decide ¬Blocked jobs batch.dedups request.indexDb := by
        funext request
        have skips := system.state.mem_skipped_dbs batch.dedups [] request.indexDb
        rw [or_iff_right List.not_mem_nil, blocked_perm was] at skips
        rw [Bool.eq_iff_iff, Bool.not_eq_true', decide_eq_true_eq, ← skips, ← Bool.not_eq_true,
          List.contains_iff_mem]
      rw [sameFilter]
      exact was.append_right _

/-- What the batches that still wait will leave. -/
def willLeave (closed : Bool) (jobs : List JobRequest) (pending : List EnqueuedBatch) : List JobRequest :=
  pending.foldl (afterBatch closed) jobs

theorem will_leave_append (closed : Bool) (jobs : List JobRequest) (first second : List EnqueuedBatch) :
    willLeave closed jobs (first ++ second) = willLeave closed (willLeave closed jobs first) second :=
  List.foldl_append

theorem Serving.queue_turn (serving : Serving closed jobs pending system) :
    ∃ jobs' pending', Serving closed jobs' pending' system.queueTurn ∧
      willLeave closed jobs' pending' = willLeave closed jobs pending := by
  unfold queueTurn
  split
  · rename_i waiting waits
    obtain ⟨job, isStart⟩ : ∃ job, waiting = .starting job := by
      rcases serving.waiting with idle | ⟨job, isStart⟩
      · rw [waits] at idle
        exact absurd idle (Option.some_ne_none waiting)
      · rw [waits, Option.some.injEq] at isStart
        exact ⟨job, isStart⟩
    subst isStart
    split
    · rename_i reply replied
      exact ⟨jobs, pending, serving.resumed waits replied, rfl⟩
    · exact ⟨jobs, pending, serving, rfl⟩
  · rename_i idle
    split
    · rename_i task rest tasks
      exact ⟨jobs, pending, serving.performed idle tasks, rfl⟩
    · rename_i done
      split
      · rename_i message rest mailbox
        cases pending with
        | nil =>
          have none_ := mailbox.symm.trans serving.mailbox
          exact absurd none_ (List.cons_ne_nil _ _)
        | cons batch pending =>
          have both := mailbox.symm.trans serving.mailbox
          rw [List.map_cons] at both
          rw [(List.cons.inj both).1] at mailbox ⊢
          exact ⟨_, pending, serving.handled idle done mailbox, rfl⟩
      · exact ⟨jobs, pending, serving, rfl⟩

theorem Serving.runner_turn (serving : Serving closed jobs pending system) :
    Serving closed jobs pending system.runnerTurn := by
  have steady := serving.steady.runner_turn
  unfold runnerTurn at steady ⊢
  split
  · rename_i message rest mailbox
    rw [mailbox] at steady
    have isRequest_ := serving.requests message (by rw [mailbox]; exact List.mem_cons_self)
    have left : ∀ message ∈ rest, isRequest message = true := by
      intro other member
      exact serving.requests other (by rw [mailbox]; exact List.mem_cons_of_mem _ member)
    cases message with
    | runJob job =>
      change (runJob { system with runnerMailbox := rest } job).Steady at steady
      change Serving closed jobs pending (runJob { system with runnerMailbox := rest } job)
      unfold runJob at steady ⊢
      split
      · rename_i busy
        rw [if_pos busy] at steady
        exact ⟨steady, serving.closed, serving.mailbox, serving.tasks, serving.waiting, left, serving.held⟩
      · rename_i free
        rw [if_neg free] at steady
        exact ⟨steady, serving.closed, serving.mailbox, serving.tasks, serving.waiting, left, serving.held⟩
    | cancelRunning =>
      exact ⟨steady, serving.closed, serving.mailbox, serving.tasks, serving.waiting, left, serving.held⟩
    | jobCompleted queueId result => exact absurd isRequest_ Bool.false_ne_true
  · exact serving

theorem Serving.posted (serving : Serving closed jobs pending system) (batch : EnqueuedBatch) :
    Serving closed jobs (pending ++ [batch]) (system.step (.post batch.message)) := by
  refine ⟨serving.steady.step _, serving.closed, ?_, serving.tasks, serving.waiting, serving.requests, serving.held⟩
  rw [List.map_append, ← serving.mailbox]
  rfl

theorem Serving.run (batches : List EnqueuedBatch) {events : List JobEvent} {messages : List ClientMessage}
    (delivers : Delivers events messages) (isBatches : messages = batches.map EnqueuedBatch.message)
    (serving : Serving closed jobs pending system) :
    ∃ jobs' pending', Serving closed jobs' pending' (events.foldl JobSystem.step system) ∧
      willLeave closed jobs' pending' = willLeave closed jobs (pending ++ batches) := by
  induction delivers generalizing system jobs pending batches with
  | done =>
    rw [List.map_eq_nil_iff.mp isBatches.symm, List.append_nil]
    exact ⟨jobs, pending, serving, rfl⟩
  | post message later ih =>
    obtain ⟨batch, rest, rfl, rfl, isRest⟩ := List.map_eq_cons_iff.mp isBatches.symm
    obtain ⟨jobs', pending', after, leaves⟩ := ih rest isRest.symm (serving.posted batch)
    refine ⟨jobs', pending', after, leaves.trans ?_⟩
    rw [List.append_assoc]
    rfl
  | queueTurn later ih =>
    obtain ⟨jobs', pending', turned, same⟩ := serving.queue_turn
    obtain ⟨last, rest, after, leaves⟩ := ih batches isBatches turned
    refine ⟨last, rest, after, leaves.trans ?_⟩
    rw [will_leave_append, same, will_leave_append]
  | runnerTurn later ih => exact ih batches isBatches serving.runner_turn

theorem quiet_held (quiet : system.Quiet) : system.held = system.state.present.map Job.toJobRequest := by
  rw [JobSystem.held, quiet.waiting, starting, List.nil_append]

/-- From one quiet state to the next, batches leave what was there and what they
add. -/
theorem Quiet.leaves (quiet : system.Quiet) (steady : system.Steady) (batches : List EnqueuedBatch)
    {events : List JobEvent} (delivers : Delivers events (batches.map EnqueuedBatch.message))
    (quietAfter : (events.foldl JobSystem.step system).Quiet) :
    ((events.foldl JobSystem.step system).state.present.map Job.toJobRequest).Perm
      (willLeave system.state.shuttingDown (system.state.present.map Job.toJobRequest) batches) := by
  have start : Serving system.state.shuttingDown (system.state.present.map Job.toJobRequest) [] system := by
    refine ⟨steady, rfl, quiet.mailbox, ?_, .inl quiet.waiting, ?_, ?_⟩
    · rw [quiet.tasks]
      exact fun _ absent => absurd absent List.not_mem_nil
    · rw [quiet.runnerMailbox]
      exact fun _ absent => absurd absent List.not_mem_nil
    · rw [quiet_held quiet]
  obtain ⟨jobs, pending, serving, leaves⟩ := start.run batches delivers rfl
  have nothing : pending = [] := by
    have empty := serving.mailbox
    rw [quietAfter.mailbox] at empty
    exact List.map_eq_nil_iff.mp empty.symm
  subst nothing
  rw [List.nil_append] at leaves
  rw [← quiet_held quietAfter, ← leaves]
  exact serving.held

end JobSystem

/-- Each database's own batch, as a run for that database alone enqueues it. -/
def ownBatch (batch : DbBatch) : EnqueuedBatch := ⟨batch.2.map Prod.snd, [⟨cronTag, batch.1⟩]⟩

def mergedBatch (perDb : List DbBatch) : EnqueuedBatch :=
  ⟨mergeCronBatches (perDb.map Prod.snd), perDb.map fun batch => ⟨cronTag, batch.1⟩⟩

/-- Every request is for its own database. -/
def Own (batch : DbBatch) : Prop := ∀ entry ∈ batch.2, entry.2.indexDb = batch.1

theorem build_own (indexDb userDataDb : String) (scanJobType : JobType) (cronJobs : List CronJob)
    (metadata : Option (Text → Option (List Text))) :
    Own (indexDb, buildCronRequests indexDb userDataDb scanJobType cronJobs metadata) := by
  intro entry member
  rcases List.mem_cons.mp member with rfl | model
  · rfl
  · cases metadata with
    | none =>
      obtain ⟨job, -, rfl⟩ := List.mem_map.mp model
      rfl
    | some resolve =>
      obtain ⟨job, -, resolved⟩ := List.mem_filterMap.mp model
      obtain ⟨targetEntities, -, rfl⟩ := Option.map_eq_some_iff.mp resolved
      rfl

/-- What a database's requests add to the jobs. -/
def added (jobs : List JobRequest) (batch : DbBatch) : List JobRequest :=
  (batch.2.map Prod.snd).filter fun request => ¬Blocked jobs [⟨cronTag, batch.1⟩] request.indexDb

theorem added_own {batch : DbBatch} (own : Own batch) {jobs : List JobRequest} {request : JobRequest}
    (member : request ∈ added jobs batch) : request.indexDb = batch.1 := by
  obtain ⟨entry, isEntry, rfl⟩ := List.mem_map.mp (List.mem_filter.mp member).1
  exact own entry isEntry

theorem added_apart {batch other : DbBatch} (own : Own other) (differ : batch.1 ≠ other.1) (jobs : List JobRequest) :
    added (jobs ++ added jobs other) batch = added jobs batch := by
  have same (indexDb : String) : Blocked (jobs ++ added jobs other) [⟨cronTag, batch.1⟩] indexDb ↔
      Blocked jobs [⟨cronTag, batch.1⟩] indexDb := by
    constructor
    · rintro ⟨dedup, member, isDb, job, isJob, tagged, jobDb⟩
      rcases List.mem_append.mp isJob with before | new
      · exact ⟨dedup, member, isDb, job, before, tagged, jobDb⟩
      · rw [List.mem_singleton.mp member] at isDb
        exact absurd (isDb.trans (jobDb.symm.trans (added_own own new))) differ
    · rintro ⟨dedup, member, isDb, job, isJob, tagged⟩
      exact ⟨dedup, member, isDb, job, List.mem_append_left _ isJob, tagged⟩
  unfold added at same ⊢
  simp only [same]

theorem own_batches_leave {perDb : List DbBatch} (own : ∀ batch ∈ perDb, Own batch)
    (distinct : (perDb.map Prod.fst).Nodup) (jobs : List JobRequest) :
    JobSystem.willLeave false jobs (perDb.map ownBatch) = jobs ++ perDb.flatMap (added jobs) := by
  induction perDb generalizing jobs with
  | nil => exact (List.append_nil jobs).symm
  | cons batch rest ih =>
    rw [List.map_cons, List.nodup_cons] at distinct
    have here : JobSystem.willLeave false jobs ((batch :: rest).map ownBatch) =
        JobSystem.willLeave false (jobs ++ added jobs batch) (rest.map ownBatch) := rfl
    rw [here, ih (fun other member => own other (List.mem_cons_of_mem _ member)) distinct.2,
      List.flatMap_cons, List.append_assoc]
    have same : rest.flatMap (added (jobs ++ added jobs batch)) = rest.flatMap (added jobs) := by
      apply List.flatMap_congr
      intro other member
      apply added_apart (own batch List.mem_cons_self)
      rintro equal
      exact distinct.1 (equal ▸ List.mem_map_of_mem member)
    rw [same]

theorem merged_batch_leaves {perDb : List DbBatch} (own : ∀ batch ∈ perDb, Own batch) (jobs : List JobRequest) :
    (JobSystem.willLeave false jobs [mergedBatch perDb]).Perm (jobs ++ perDb.flatMap (added jobs)) := by
  have reordered := merge_reorders (perDb.map Prod.snd)
  have permuted : (mergeCronBatches (perDb.map Prod.snd)).Perm (perDb.flatMap fun batch => batch.2.map Prod.snd) := by
    have flat := reordered.permuted.map Prod.snd
    rw [reordered.requests, List.map_flatten, List.map_map] at flat
    exact flat
  apply List.Perm.append_left jobs
  apply (permuted.filter _).trans
  rw [List.filter_flatMap]
  apply List.Perm.of_eq
  apply List.flatMap_congr
  intro batch member
  apply List.filter_congr
  intro request isRequest
  obtain ⟨entry, isEntry, rfl⟩ := List.mem_map.mp isRequest
  rw [own batch member entry isEntry]
  apply decide_eq_decide.mpr
  apply not_congr
  constructor
  · rintro ⟨dedup, isDedup, isDb, job, isJob, tagged, jobDb⟩
    obtain ⟨other, -, rfl⟩ := List.mem_map.mp isDedup
    exact ⟨⟨cronTag, batch.1⟩, List.mem_singleton.mpr rfl, rfl, job, isJob, tagged, jobDb⟩
  · rintro ⟨dedup, isDedup, isDb, blocked⟩
    rw [List.mem_singleton.mp isDedup] at blocked
    exact ⟨⟨cronTag, batch.1⟩, List.mem_map.mpr ⟨batch, member, rfl⟩, rfl, blocked⟩

/-- Merging reorders the requests of the databases by phase and setter, and the
merged batch leaves the jobs their own batches leave. -/
theorem merged_batch_keeps_jobs (perDb : List DbBatch) (own : ∀ batch ∈ perDb, Own batch)
    (distinct : (perDb.map Prod.fst).Nodup) :
    Reordered (perDb.map Prod.snd) ∧
    ∀ (history merged separate : List JobEvent), (jobMachine.run history).Quiet →
      Delivers merged [enqueueCronBatches perDb] →
      Delivers separate (perDb.map fun batch => (ownBatch batch).message) →
      (merged.foldl JobSystem.step (jobMachine.run history)).Quiet →
      (separate.foldl JobSystem.step (jobMachine.run history)).Quiet →
      ((merged.foldl JobSystem.step (jobMachine.run history)).state.present.map Job.toJobRequest).Perm
        ((separate.foldl JobSystem.step (jobMachine.run history)).state.present.map Job.toJobRequest) := by
  refine ⟨merge_reorders _, ?_⟩
  intro history merged separate quiet deliversMerged deliversSeparate quietMerged quietSeparate
  have steady := steady_run history
  have together := quiet.leaves steady [mergedBatch perDb] deliversMerged quietMerged
  have apart := quiet.leaves steady (perDb.map ownBatch) (by rw [List.map_map]; exact deliversSeparate) quietSeparate
  apply together.trans
  apply List.Perm.trans _ apart.symm
  cases (jobMachine.run history).state.shuttingDown with
  | true =>
      have nothing (jobs : List JobRequest)
        (batches : List EnqueuedBatch) : JobSystem.willLeave true jobs batches = jobs := by
        induction batches with
        | nil => rfl
        | cons batch rest ih => exact ih
      rw [nothing, nothing]
  | false =>
      rw [own_batches_leave own distinct]
      exact merged_batch_leaves own _

/-- Two databases whose models the inference server could not classify. -/
def unclassifiedDbs : List DbBatch :=
  [("one", buildCronRequests "one" "user" .folderRescan
      [⟨"g/embed".toList, none, none⟩, ⟨"g/ocr".toList, none, none⟩] none),
    ("two", buildCronRequests "two" "user" .folderRescan [⟨"g/embed".toList, none, none⟩] none)]

/-- A queue that is handed the first job of a batch. -/
def firstTurns : List JobEvent := [.queueTurn, .queueTurn, .runnerTurn, .queueTurn, .queueTurn]

def mergedEvents : List JobEvent := .post (enqueueCronBatches unclassifiedDbs) :: firstTurns

def separateEvents : List JobEvent :=
  (unclassifiedDbs.map fun batch => JobEvent.post (ownBatch batch).message).flatMap fun post => post :: firstTurns

theorem unclassified_dbs_keep_jobs : Reordered (unclassifiedDbs.map Prod.snd) ∧
    ((mergedEvents.foldl JobSystem.step (jobMachine.run [])).state.present.map Job.toJobRequest).Perm
      ((separateEvents.foldl JobSystem.step (jobMachine.run [])).state.present.map Job.toJobRequest) := by
  have own : ∀ batch ∈ unclassifiedDbs, Own batch := by
    intro batch member
    rcases List.mem_cons.mp member with rfl | member
    · exact build_own _ _ _ _ _
    · rw [List.mem_singleton.mp member]
      exact build_own _ _ _ _ _
  have quiet {system : JobSystem} (mailbox : system.mailbox.isEmpty = true) (tasks : system.tasks.isEmpty = true)
      (waiting : system.waiting.isNone = true) (runnerMailbox : system.runnerMailbox.isEmpty = true) :
      system.Quiet :=
    ⟨List.isEmpty_iff.mp mailbox, List.isEmpty_iff.mp tasks, Option.isNone_iff_eq_none.mp waiting,
      List.isEmpty_iff.mp runnerMailbox⟩
  have turns {events : List JobEvent} {messages : List ClientMessage} (later : Delivers events messages) :
      Delivers (firstTurns ++ events) messages :=
    .queueTurn (.queueTurn (.runnerTurn (.queueTurn (.queueTurn later))))
  have kept := merged_batch_keeps_jobs unclassifiedDbs own (by decide)
  refine ⟨kept.1, kept.2 [] mergedEvents separateEvents ⟨rfl, rfl, rfl, rfl⟩ ?_ ?_ ?_ ?_⟩
  · exact .post _ (turns .done)
  · exact .post _ (turns (.post _ (turns .done)))
  · exact quiet (by decide +kernel) (by decide +kernel) (by decide +kernel) (by decide +kernel)
  · exact quiet (by decide +kernel) (by decide +kernel) (by decide +kernel) (by decide +kernel)

/-- The requests of one setter are not together when their phase is unknown. -/
theorem unclassified_setter_apart :
    ¬Together (fun entry : CronPhase × JobRequest => entry.1 = .unknown ∧ entry.2.metadata = some "g/embed".toList)
      (mergedOrder (unclassifiedDbs.map Prod.snd)) := by
  intro together
  have split : mergedOrder (unclassifiedDbs.map Prod.snd) =
      [(.scan, cronRequest .folderRescan "one" "user" none), (.scan, cronRequest .folderRescan "two" "user" none)] ++
        (.unknown, modelRequest "one" "user" ⟨"g/embed".toList, none, none⟩) ::
          ([(.unknown, modelRequest "one" "user" ⟨"g/ocr".toList, none, none⟩)] ++
            (.unknown, modelRequest "two" "user" ⟨"g/embed".toList, none, none⟩) :: []) := by
    decide +kernel
  have ocr := together _ _ _ _ _ split ⟨rfl, rfl⟩ ⟨rfl, rfl⟩ _ (List.mem_singleton.mpr rfl)
  exact absurd ocr.2 (by decide +kernel)

end Panoptikon.Jobs
