import Panoptikon.Jobs.Ledger

/-!
# The queue and the runner in step

What the queue takes to be running is what the runner runs, up to the messages
between them: a request the queue waits for, its reply, and the report of a job
that ended. A report of an ended job comes to the queue when the runner is free
of that job.
-/

namespace Panoptikon.Jobs

open Foundation

namespace JobSystem

/-- The job the runner was handed and has not given back. -/
def handed (system : JobSystem) : Option Int :=
  match system.waiting, system.reply with
  | some (.starting job), some _ => some job.queueId
  | some (.starting _), none => none
  | some (.cancelling _ _), some (.cancelled (some _)) => none
  | _, _ => system.state.runningJob.map fun job => job.queueId

/-- The job on its way to the runner. -/
def unstarted (system : JobSystem) : List Int :=
  match system.waiting, system.reply with
  | some (.starting job), none => [job.queueId]
  | _, _ => []

def isRequest : RunnerMessage → Bool
  | .runJob _ | .cancelRunning => true
  | .jobCompleted _ _ => false

/-- The requests to the runner that have no reply yet. -/
def expected (system : JobSystem) : List RunnerMessage :=
  match system.waiting, system.reply with
  | some (.starting job), none => [.runJob job]
  | some (.cancelling _ _), none => [.cancelRunning]
  | _, _ => []

/-- The reply fits the request. -/
def ReplyFits (system : JobSystem) : Prop :=
  match system.waiting, system.reply with
  | _, none => True
  | none, some _ => False
  | some (.starting _), some reply => reply = .accepted
  | some (.cancelling running _), some reply =>
      reply = .cancelled none ∨ reply = .cancelled (some running.queueId)

def WaitFits (system : JobSystem) : Prop :=
  match system.waiting with
  | none => True
  | some (.starting _) => system.state.runningJob = none
  | some (.cancelling running _) => system.state.runningJob = some running

/-- The report of the end of a job is on its way. -/
def Reporting (system : JobSystem) (id : Int) : Prop :=
  id ∈ system.watched ∨ (∃ result, RunnerMessage.jobCompleted id result ∈ system.runnerMailbox) ∨
    ∃ result, QueueMessage.runnerFinished id result ∈ system.mailbox

structure Synced (system : JobSystem) : Prop where
  requests : system.runnerMailbox.filter isRequest = system.expected
  reply : system.ReplyFits
  wait : system.WaitFits
  runner : ∀ id, system.runnerRunning = some id → system.handed = some id
  finished : ∀ id result, QueueMessage.runnerFinished id result ∈ system.mailbox →
    system.runnerRunning ≠ some id ∧ id ∈ system.started
  completed : ∀ id result, RunnerMessage.jobCompleted id result ∈ system.runnerMailbox →
    id ∈ system.started
  watched : ∀ id ∈ system.watched, id ∈ system.started
  rejected : system.rejected = []
  reporting : ∀ id, system.handed = some id → system.Reporting id

variable {system next : JobSystem}

theorem Synced.post (synced : system.Synced) (message : ClientMessage) :
    ({ system with mailbox := system.mailbox ++ [.client message] } : JobSystem).Synced := by
  refine ⟨synced.requests, synced.reply, synced.wait, synced.runner, fun id result member => ?_,
    synced.completed, synced.watched, synced.rejected, fun id isHanded => ?_⟩
  · rcases List.mem_append.mp member with old | new
    · exact synced.finished id result old
    · cases List.mem_singleton.mp new
  · rcases synced.reporting id isHanded with watched | completed | ⟨result, finished⟩
    · exact .inl watched
    · exact .inr (.inl completed)
    · exact .inr (.inr ⟨result, List.mem_append_left _ finished⟩)

theorem Synced.job_ends (synced : system.Synced) (queueId : Int) (result : JobRunResult) :
    (system.jobEnds queueId result).Synced := by
  unfold jobEnds
  split
  · rename_i isWatched
    refine ⟨?_, synced.reply, synced.wait, synced.runner, synced.finished, fun id other member => ?_,
      fun id member => synced.watched id (List.mem_of_mem_erase member), synced.rejected,
      fun id isHanded => ?_⟩
    · change (system.runnerMailbox ++ _).filter isRequest = _
      rw [List.filter_append, synced.requests]
      exact List.append_nil _
    · rcases List.mem_append.mp member with old | new
      · exact synced.completed id other old
      · cases List.mem_singleton.mp new
        exact synced.watched queueId isWatched
    · rcases synced.reporting id isHanded with watched | ⟨other, completed⟩ | finished
      · by_cases same : id = queueId
        · subst same
          exact .inr (.inl ⟨result, List.mem_append_right _ (List.mem_singleton_self _)⟩)
        · exact .inl ((List.mem_erase_of_ne same).mpr watched)
      · exact .inr (.inl ⟨other, List.mem_append_left _ completed⟩)
      · exact .inr (.inr finished)
  · exact synced

variable {rest : List RunnerMessage}

/-- The request at the head of the mailbox is the one the queue waits for. -/
theorem Synced.head_request (synced : system.Synced) {message : RunnerMessage}
    (mailbox : system.runnerMailbox = message :: rest)
    (request : isRequest message = true) : system.expected = [message] ∧ rest.filter isRequest = [] := by
  have requests := synced.requests
  rw [mailbox, List.filter_cons, if_pos request] at requests
  have short : system.expected.length ≤ 1 := by
    unfold expected
    split <;> simp
  rw [← requests, List.length_cons] at short
  have none : rest.filter isRequest = [] := List.eq_nil_of_length_eq_zero (by omega)
  rw [none] at requests
  exact ⟨requests.symm, none⟩

variable {job : Job}

theorem starting_of_expected (expects : system.expected = [.runJob job]) :
    system.waiting = some (.starting job) ∧ system.reply = none := by
  unfold expected at expects
  split at expects
  · rename_i other waits silent
    cases expects
    exact ⟨waits, silent⟩
  · cases expects
  · cases expects

theorem cancelling_of_expected (expects : system.expected = [.cancelRunning]) :
    ∃ running suppress, system.waiting = some (.cancelling running suppress) ∧
      system.reply = none := by
  unfold expected at expects
  split at expects
  · cases expects
  · rename_i running suppress waits silent
    exact ⟨running, suppress, waits, silent⟩
  · cases expects

theorem Synced.run_job (synced : system.Synced)
    (mailbox : system.runnerMailbox = .runJob job :: rest) (fresh : job.queueId ∉ system.started) :
    (runJob { system with runnerMailbox := rest } job).Synced ∧ system.runnerRunning = none := by
  obtain ⟨expects, noRequest⟩ := synced.head_request mailbox rfl
  obtain ⟨waits, silent⟩ := starting_of_expected expects
  have noneHanded : system.handed = none := by rw [handed, waits, silent]
  have free : system.runnerRunning = none := by
    cases running : system.runnerRunning with
    | none => rfl
    | some id =>
      have isHanded := synced.runner id running
      rw [noneHanded] at isHanded
      cases isHanded
  refine ⟨?_, free⟩
  have accepted : runJob { system with runnerMailbox := rest } job =
      { system with
        runnerMailbox := rest
        runnerRunning := some job.queueId
        watched := system.watched ++ [job.queueId]
        started := system.started ++ [job.queueId]
        reply := some .accepted } := by
    unfold runJob
    rw [if_neg (by rw [free]; exact Bool.false_ne_true)]
    rfl
  rw [accepted]
  have waitFits : system.state.runningJob = none := by
    have wait := synced.wait
    rw [WaitFits, waits] at wait
    exact wait
  have isHanded (other : JobSystem) (isWaiting : other.waiting = system.waiting)
      (replied : other.reply = some .accepted) : other.handed = some job.queueId := by
    rw [handed, isWaiting, waits, replied]
  refine ⟨?_, ?_, ?_, fun id running => ?_, fun id result member => ?_, fun id result member => ?_,
    fun id member => ?_, synced.rejected, fun id handedId => ?_⟩
  · change rest.filter isRequest = _
    rw [noRequest, expected]
    dsimp only
    rw [waits]
  · rw [ReplyFits]
    dsimp only
    rw [waits]
  · rw [WaitFits]
    dsimp only
    rw [waits]
    exact waitFits
  · refine Eq.trans (isHanded _ ?_ ?_) running
    · rfl
    · rfl
  · obtain ⟨-, isStarted⟩ := synced.finished id result member
    refine ⟨fun same => ?_, List.mem_append_left _ isStarted⟩
    rw [← Option.some.inj same] at isStarted
    exact fresh isStarted
  · refine List.mem_append_left _ (synced.completed id result ?_)
    rw [mailbox]
    exact List.mem_cons_of_mem _ member
  · rcases List.mem_append.mp member with old | new
    · exact List.mem_append_left _ (synced.watched id old)
    · exact List.mem_append_right _ new
  · have same : some job.queueId = some id := by
      refine Eq.trans (isHanded _ ?_ ?_).symm handedId
      · rfl
      · rfl
    rw [← Option.some.inj same]
    exact .inl (List.mem_append_right _ (List.mem_singleton_self _))

theorem Synced.cancel_runner (synced : system.Synced) (mailbox : system.runnerMailbox = .cancelRunning :: rest) :
    (handleRunner { system with runnerMailbox := rest } .cancelRunning).Synced := by
  obtain ⟨expects, noRequest⟩ := synced.head_request mailbox rfl
  obtain ⟨running, suppress, waits, silent⟩ := cancelling_of_expected expects
  have isRunning : system.state.runningJob = some running := by
    have wait := synced.wait
    rw [WaitFits, waits] at wait
    exact wait
  have isHanded : system.handed = some running.queueId := by
    rw [handed, waits, silent]
    dsimp only
    rw [isRunning]
    rfl
  have replied : system.runnerRunning = none ∨ system.runnerRunning = some running.queueId := by
    cases run : system.runnerRunning with
    | none => exact .inl rfl
    | some id =>
      have same := synced.runner id run
      rw [isHanded] at same
      rw [Option.some.inj same]
      exact .inr rfl
  change ({ system with
    runnerMailbox := rest, runnerRunning := none,
    reply := some (.cancelled system.runnerRunning) } : JobSystem).Synced
  refine ⟨?_, ?_, ?_, nofun, fun id result member => ?_, fun id result member => ?_, synced.watched,
    synced.rejected, fun id handedId => ?_⟩
  · change rest.filter isRequest = _
    rw [noRequest, expected]
    dsimp only
    rw [waits]
  · rw [ReplyFits]
    dsimp only
    rw [waits]
    rcases replied with run | run
    · rw [run]
      exact .inl rfl
    · rw [run]
      exact .inr rfl
  · rw [WaitFits]
    dsimp only
    rw [waits]
    exact isRunning
  · exact ⟨nofun, (synced.finished id result member).2⟩
  · refine synced.completed id result ?_
    rw [mailbox]
    exact List.mem_cons_of_mem _ member
  · have wasHanded : system.handed = some id := by
      rw [isHanded, ← handedId, handed]
      dsimp only
      rw [waits]
      rcases replied with run | run
      · rw [run]
        dsimp only
        rw [isRunning]
        rfl
      · rw [handed] at handedId
        dsimp only at handedId
        rw [waits, run] at handedId
        cases handedId
    rcases synced.reporting id wasHanded with watched | ⟨result, completed⟩ | finished
    · exact .inl watched
    · rw [mailbox] at completed
      rcases List.mem_cons.mp completed with isCancel | later
      · cases isCancel
      · exact .inr (.inl ⟨result, later⟩)
    · exact .inr (.inr finished)

theorem Synced.job_completed (synced : system.Synced) {queueId : Int} {result : JobRunResult}
    (mailbox : system.runnerMailbox = .jobCompleted queueId result :: rest) :
    (jobCompleted { system with runnerMailbox := rest } queueId result).Synced := by
  have isStarted : queueId ∈ system.started :=
    synced.completed queueId result (by rw [mailbox]; exact List.mem_cons_self)
  have freed (id : Int) (running : (if system.runnerRunning = some queueId then none
      else system.runnerRunning) = some id) : system.runnerRunning = some id ∧ id ≠ queueId := by
    split at running
    · cases running
    · rename_i different
      refine ⟨running, fun same => different ?_⟩
      rw [← same]
      exact running
  unfold jobCompleted
  refine ⟨?_, synced.reply, synced.wait, fun id running => ?_, fun id other member => ?_,
    fun id other member => ?_, synced.watched, synced.rejected, fun id isHanded => ?_⟩
  · have requests := synced.requests
    rw [mailbox] at requests
    exact requests
  · exact synced.runner id (freed id running).1
  · rcases List.mem_append.mp member with old | new
    · obtain ⟨notRunning, started⟩ := synced.finished id other old
      exact ⟨fun running => notRunning (freed id running).1, started⟩
    · cases List.mem_singleton.mp new
      exact ⟨fun running => (freed queueId running).2 rfl, isStarted⟩
  · refine synced.completed id other ?_
    rw [mailbox]
    exact List.mem_cons_of_mem _ member
  · rcases synced.reporting id isHanded with watched | ⟨other, completed⟩ | ⟨other, finished⟩
    · exact .inl watched
    · rw [mailbox] at completed
      rcases List.mem_cons.mp completed with isThis | later
      · cases isThis
        exact .inr (.inr ⟨result, List.mem_append_right _ (List.mem_singleton_self _)⟩)
      · exact .inr (.inl ⟨other, later⟩)
    · exact .inr (.inr ⟨other, List.mem_append_left _ finished⟩)

/-- The runner sees nothing of what the queue does with its own state. -/
structure Apart (system next : JobSystem) : Prop where
  runnerMailbox : next.runnerMailbox = system.runnerMailbox
  runnerRunning : next.runnerRunning = system.runnerRunning
  watched : next.watched = system.watched
  started : next.started = system.started
  rejected : next.rejected = system.rejected

theorem Synced.advance (synced : system.Synced) (apart : Apart system next)
    (expects : next.expected = system.expected) (reply : next.ReplyFits) (wait : next.WaitFits)
    (runner : ∀ id, system.runnerRunning = some id → next.handed = some id)
    (still : ∀ id, next.handed = some id → system.handed = some id)
    (mailbox : ∀ message ∈ next.mailbox, message ∈ system.mailbox)
    (keeps : ∀ id result, next.handed = some id →
      QueueMessage.runnerFinished id result ∈ system.mailbox →
        QueueMessage.runnerFinished id result ∈ next.mailbox) : next.Synced := by
  refine ⟨?_, reply, wait, fun id run => runner id (apart.runnerRunning ▸ run),
    fun id result member => ?_, fun id result member => ?_, fun id member => ?_,
    apart.rejected.trans synced.rejected, fun id isHanded => ?_⟩
  · rw [apart.runnerMailbox, synced.requests, expects]
  · rw [apart.runnerRunning, apart.started]
    exact synced.finished id result (mailbox _ member)
  · rw [apart.started]
    exact synced.completed id result (apart.runnerMailbox ▸ member)
  · rw [apart.started]
    exact synced.watched id (apart.watched ▸ member)
  · rcases synced.reporting id (still id isHanded) with watched | ⟨result, completed⟩ | ⟨result, finished⟩
    · exact .inl (apart.watched ▸ watched)
    · exact .inr (.inl ⟨result, apart.runnerMailbox ▸ completed⟩)
    · exact .inr (.inr ⟨result, keeps id result isHanded finished⟩)

theorem Synced.apart (synced : system.Synced) (apart : Apart system next)
    (waiting : next.waiting = system.waiting) (reply : next.reply = system.reply)
    (running : next.state.runningJob = system.state.runningJob)
    (mailbox : ∀ message ∈ next.mailbox, message ∈ system.mailbox)
    (keeps : ∀ id result, next.handed = some id →
      QueueMessage.runnerFinished id result ∈ system.mailbox →
        QueueMessage.runnerFinished id result ∈ next.mailbox) : next.Synced := by
  have sameHanded : next.handed = system.handed := by
    rw [handed, handed, waiting, reply, running]
  refine synced.advance apart ?_ ?_ ?_ (fun id run => ?_) (fun id isHanded => ?_) mailbox keeps
  · rw [expected, expected, waiting, reply]
  · have fits := synced.reply
    rw [ReplyFits] at fits ⊢
    rw [waiting, reply]
    exact fits
  · have fits := synced.wait
    rw [WaitFits] at fits ⊢
    rw [waiting, running]
    exact fits
  · rw [sameHanded]
    exact synced.runner id run
  · rw [← sameHanded]
    exact isHanded

theorem handed_of_idle (idle : system.waiting = none) :
    system.handed = system.state.runningJob.map fun job => job.queueId := by
  rw [handed, idle]

theorem expected_of_idle (idle : system.waiting = none) : system.expected = [] := by
  rw [expected, idle]

theorem Synced.reply_of_idle (synced : system.Synced) (idle : system.waiting = none) : system.reply = none := by
  have fits := synced.reply
  rw [ReplyFits, idle] at fits
  cases replied : system.reply with
  | none => rfl
  | some reply =>
    rw [replied] at fits
    exact fits.elim

theorem Synced.replied (synced : system.Synced) (apart : Apart system next) (idle : next.waiting = none)
    (taken : next.reply = none) (nothing : system.expected = []) (mailbox : next.mailbox = system.mailbox)
    (same : next.handed = system.handed) : next.Synced := by
  refine synced.advance apart ((expected_of_idle idle).trans nothing.symm) ?_ ?_
    (fun id run => same.trans (synced.runner id run)) (fun id isHanded => same.symm.trans isHanded)
    (fun message member => mailbox ▸ member) (fun id result isHanded member => mailbox ▸ member)
  · rw [ReplyFits, taken]
    trivial
  · rw [WaitFits, idle]
    trivial

theorem Synced.asks (synced : system.Synced) (apart : Apart system next) (idle : system.waiting = none)
    (mailbox : next.mailbox = system.mailbox) {message : RunnerMessage} {waiting : Waiting}
    (asked : isRequest message = true) (expects : (next.ask message waiting).expected = [message])
    (reply : (next.ask message waiting).ReplyFits) (wait : (next.ask message waiting).WaitFits)
    (runner : ∀ id, system.runnerRunning = some id → (next.ask message waiting).handed = some id)
    (still : ∀ id, (next.ask message waiting).handed = some id → system.handed = some id) :
    (next.ask message waiting).Synced := by
  refine ⟨?_, reply, wait, fun id run => runner id (apart.runnerRunning ▸ run), fun id result member => ?_,
    fun id result member => ?_, fun id member => apart.started ▸ synced.watched id (apart.watched ▸ member),
    apart.rejected.trans synced.rejected, fun id isHanded => ?_⟩
  · change (next.runnerMailbox ++ [message]).filter isRequest = _
    rw [List.filter_append, apart.runnerMailbox, synced.requests, expected_of_idle idle, expects,
      List.filter_cons_of_pos asked]
    rfl
  · change QueueMessage.runnerFinished id result ∈ next.mailbox at member
    rw [mailbox] at member
    obtain ⟨notRunning, isStarted⟩ := synced.finished id result member
    exact ⟨fun run => notRunning (apart.runnerRunning ▸ run), apart.started ▸ isStarted⟩
  · change RunnerMessage.jobCompleted id result ∈ next.runnerMailbox ++ [message] at member
    rcases List.mem_append.mp member with old | new
    · exact apart.started ▸ synced.completed id result (apart.runnerMailbox ▸ old)
    · rw [← List.mem_singleton.mp new] at asked
      cases asked
  · rcases synced.reporting id (still id isHanded) with watched | ⟨result, completed⟩ | ⟨result, finished⟩
    · exact .inl (apart.watched ▸ watched)
    · refine .inr (.inl ⟨result, List.mem_append_left _ ?_⟩)
      exact apart.runnerMailbox ▸ completed
    · exact .inr (.inr ⟨result, mailbox ▸ finished⟩)

theorem Synced.ask_start (synced : system.Synced) (next : JobSystem) (apart : Apart system next)
    (idle : system.waiting = none) (reply : next.reply = none)
    (noneRuns : system.state.runningJob = none) (stillNone : next.state.runningJob = none)
    (mailbox : next.mailbox = system.mailbox) (job : Job) : (next.ask (.runJob job) (.starting job)).Synced := by
  have newHanded : (next.ask (.runJob job) (.starting job)).handed = none := by
    unfold handed ask
    dsimp only
    rw [reply]
  refine synced.asks apart idle mailbox rfl ?_ ?_ stillNone (fun id run => ?_) (fun id isHanded => ?_)
  · unfold expected ask
    dsimp only
    rw [reply]
  · unfold ReplyFits ask
    dsimp only
    rw [reply]
    trivial
  · have was := synced.runner id run
    rw [handed_of_idle idle, noneRuns] at was
    cases was
  · rw [newHanded] at isHanded
    cases isHanded

theorem Synced.ask_cancel (synced : system.Synced) (next : JobSystem) (apart : Apart system next)
    (idle : system.waiting = none) (reply : next.reply = none)
    (running : system.state.runningJob = some job) (stillRuns : next.state.runningJob = some job)
    (mailbox : next.mailbox = system.mailbox) (suppress : Bool) :
    (next.ask .cancelRunning (.cancelling job suppress)).Synced := by
  have sameHanded : (next.ask .cancelRunning (.cancelling job suppress)).handed = system.handed := by
    rw [handed_of_idle idle, running]
    unfold handed ask
    dsimp only
    rw [reply, stillRuns]
  refine synced.asks apart idle mailbox rfl ?_ ?_ stillRuns (fun id run => sameHanded.trans (synced.runner id run))
    (fun id isHanded => sameHanded.symm.trans isHanded)
  · unfold expected ask
    dsimp only
    rw [reply]
  · unfold ReplyFits ask
    dsimp only
    rw [reply]
    trivial

end JobSystem

end Panoptikon.Jobs
