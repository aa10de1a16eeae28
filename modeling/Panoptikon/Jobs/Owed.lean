import Panoptikon.Jobs.Ledger
import Mathlib.Data.List.Induction

/-!
# What each database is owed

The log read as an account: flags are owed when a job ends or a report comes in, and
a maintenance job that is queued pays all of them. The owed map is the balance of the
account in every state, each payment carries the whole balance, and each job end is
charged once.
-/

namespace Panoptikon.Jobs

open Foundation

inductive MaintenanceFlag where
  | wroteData
  | deletedData
  | tagsChanged

namespace ChangeSummary

def on (summary : ChangeSummary) : MaintenanceFlag → Bool
  | .wroteData => summary.wroteData
  | .deletedData => summary.deletedData
  | .tagsChanged => summary.tagsChanged

variable {summary other : ChangeSummary}

@[simp] theorem from_to_metadata (summary : ChangeSummary) :
    fromMetadata (some summary.toMetadata) = summary := by
  rcases summary with ⟨_ | _, _ | _, _ | _⟩ <;> decide

@[simp] theorem none_or_with (summary : ChangeSummary) : none.orWith summary = summary := by
  rcases summary with ⟨_, _, _⟩
  simp [orWith, none]

theorem or_with_on (summary other : ChangeSummary) (flag : MaintenanceFlag) :
    (summary.orWith other).on flag = (summary.on flag || other.on flag) := by
  cases flag <;> rfl

@[simp] theorem all_on (flag : MaintenanceFlag) : all.on flag = true := by cases flag <;> rfl

theorem or_with_not_empty (notEmpty : other.isEmpty = false) : (summary.orWith other).isEmpty = false := by
  rcases summary with ⟨_ | _, _ | _, _ | _⟩ <;> rcases other with ⟨_ | _, _ | _, _ | _⟩ <;>
    first | rfl | cases notEmpty

end ChangeSummary

def unpaidAfter (indexDb : String) (summary : ChangeSummary) : QueueEntry → ChangeSummary
  | .owes owing more _ => if owing = indexDb then summary.orWith more else summary
  | .appended job _ _ _ => if job.indexDb = indexDb then .none else summary
  | .upgraded job => if job.indexDb = indexDb then .none else summary
  | .outcome _ | .boundary _ _ | .ignored _ | .shed _ => summary

/-- What the database is owed by the log. -/
def unpaid (indexDb : String) (log : List QueueEntry) : ChangeSummary :=
  log.foldl (unpaidAfter indexDb) .none

variable (indexDb : String)

@[simp] theorem unpaid_snoc (log : List QueueEntry) (entry : QueueEntry) :
    unpaid indexDb (log ++ [entry]) = unpaidAfter indexDb (unpaid indexDb log) entry := by
  simp [unpaid]

/-- The maintenance job an entry is about. -/
def payment : QueueEntry → Option Job
  | .appended job _ _ _ => some job
  | .upgraded job => some job
  | .owes _ _ _ | .outcome _ | .boundary _ _ | .ignored _ | .shed _ => none

/-- The job ends that owe, by the id of the job. -/
def chargedIds (log : List QueueEntry) : List Int :=
  log.filterMap fun entry =>
    match entry with
    | .owes _ _ (.boundary job) => some job.queueId
    | _ => none

@[simp] theorem charged_ids_append (first last : List QueueEntry) :
    chargedIds (first ++ last) = chargedIds first ++ chargedIds last := List.filterMap_append

/-- An entry that may follow the log. -/
def Admissible (log : List QueueEntry) : QueueEntry → Prop
  | .owes indexDb summary source => summary.isEmpty = false ∧
      ∀ job, source = .boundary job → job.jobType ≠ .dbMaintenance ∧ job.indexDb = indexDb
  | .appended job flags synthesized beside => job.jobType = .dbMaintenance ∧
      ChangeSummary.fromMetadata job.metadata = flags ∧
      if synthesized then flags = unpaid job.indexDb log ∧ flags.isEmpty = false ∧
        ∀ other ∈ beside, other.indexDb ≠ job.indexDb
      else flags = .all
  | .upgraded job => job.jobType = .dbMaintenance ∧
      ChangeSummary.fromMetadata job.metadata = .all
  | .outcome _ | .boundary _ _ | .ignored _ | .shed _ => True

def WellKept (log : List QueueEntry) : Prop :=
  ∀ before entry after, log = before ++ entry :: after → Admissible before entry

theorem WellKept.snoc {log : List QueueEntry} {entry : QueueEntry} (kept : WellKept log)
    (admissible : Admissible log entry) : WellKept (log ++ [entry]) := by
  intro before other after split
  rcases List.eq_nil_or_concat after with rfl | ⟨more, last, rfl⟩
  · obtain ⟨rfl, same⟩ := List.append_inj' split rfl
    cases same
    exact admissible
  · rw [List.concat_eq_append, ← List.cons_append, ← List.append_assoc] at split
    obtain ⟨isLog, -⟩ := List.append_inj' split rfl
    exact kept before other more isLog

theorem payment_carries {log : List QueueEntry} {entry : QueueEntry} {job : Job}
    (admissible : Admissible log entry) (pays : payment entry = some job) (flag : MaintenanceFlag)
    (owes : (unpaid job.indexDb log).on flag = true) :
    job.jobType = .dbMaintenance ∧ (ChangeSummary.fromMetadata job.metadata).on flag = true := by
  cases entry with
  | appended appended flags synthesized beside =>
    cases pays
    obtain ⟨isMaintenance, carries, isFlags⟩ := admissible
    refine ⟨isMaintenance, ?_⟩
    rw [carries]
    split at isFlags
    · rw [isFlags.1]
      exact owes
    · rw [isFlags]
      exact ChangeSummary.all_on flag
  | upgraded upgraded =>
    cases pays
    obtain ⟨isMaintenance, carries⟩ := admissible
    refine ⟨isMaintenance, ?_⟩
    rw [carries]
    exact ChangeSummary.all_on flag
  | owes | outcome | boundary | ignored | shed => cases pays

theorem unpaid_until (flag : MaintenanceFlag) (before after : List QueueEntry)
    (owes : (unpaid indexDb before).on flag = true) : (unpaid indexDb (before ++ after)).on flag = true ∨
      ∃ between entry later job, after = between ++ entry :: later ∧ payment entry = some job ∧
        job.indexDb = indexDb ∧ (unpaid indexDb (before ++ between)).on flag = true := by
  induction after generalizing before with
  | nil =>
    rw [List.append_nil]
    exact .inl owes
  | cons entry rest ih =>
    by_cases paid : ∃ job, payment entry = some job ∧ job.indexDb = indexDb
    · obtain ⟨job, pays, isDb⟩ := paid
      refine .inr ⟨[], entry, rest, job, rfl, pays, isDb, ?_⟩
      rw [List.append_nil]
      exact owes
    · have still : (unpaid indexDb (before ++ [entry])).on flag = true := by
        rw [unpaid_snoc]
        cases entry with
        | owes owing more source =>
          rw [unpaidAfter]
          split
          · rw [ChangeSummary.or_with_on, owes, Bool.true_or]
          · exact owes
        | appended job flags synthesized beside =>
          rw [unpaidAfter]
          rw [if_neg fun isDb => paid ⟨job, rfl, isDb⟩]
          exact owes
        | upgraded job =>
          rw [unpaidAfter]
          rw [if_neg fun isDb => paid ⟨job, rfl, isDb⟩]
          exact owes
        | outcome | boundary | ignored | shed => exact owes
      rcases ih (before ++ [entry]) still with onceMore | ⟨between, other, later, job, split, pays⟩
      · rw [List.append_assoc] at onceMore
        exact .inl onceMore
      · rw [List.append_assoc] at pays
        exact .inr ⟨entry :: between, other, later, job, by rw [split]; rfl, pays⟩

theorem charged_since (log : List QueueEntry) (owes : (unpaid indexDb log).isEmpty = false) :
    ∃ before summary source since, log = before ++ .owes indexDb summary source :: since ∧
      ∀ entry ∈ since, ∀ job, payment entry = some job → job.indexDb ≠ indexDb := by
  induction log using List.reverseRecOn with
  | nil => cases owes
  | append_singleton log entry ih =>
    rw [unpaid_snoc] at owes
    have earlier (same : (unpaid indexDb log).isEmpty = false)
        (other : ∀ job, payment entry = some job → job.indexDb ≠ indexDb) :
        ∃ before summary source since,
          log ++ [entry] = before ++ .owes indexDb summary source :: since ∧
          ∀ entry ∈ since, ∀ job, payment entry = some job → job.indexDb ≠ indexDb := by
      obtain ⟨before, summary, source, since, split, none⟩ := ih same
      refine ⟨before, summary, source, since ++ [entry], ?_, fun later member job pays => ?_⟩
      · rw [split, List.append_assoc]
        rfl
      · rcases List.mem_append.mp member with inside | last
        · exact none later inside job pays
        · rw [List.mem_singleton.mp last] at pays
          exact other job pays
    cases entry with
    | owes owing more source =>
      by_cases isDb : owing = indexDb
      · subst isDb
        exact ⟨log, more, source, [], rfl, fun _ member => by cases member⟩
      · refine earlier ?_ fun _ pays => by cases pays
        rwa [unpaidAfter, if_neg isDb] at owes
    | appended job flags synthesized beside =>
      by_cases isDb : job.indexDb = indexDb
      · rw [unpaidAfter, if_pos isDb] at owes
        cases owes
      · rw [unpaidAfter, if_neg isDb] at owes
        exact earlier owes fun other pays => Option.some.inj pays ▸ isDb
    | upgraded job =>
      by_cases isDb : job.indexDb = indexDb
      · rw [unpaidAfter, if_pos isDb] at owes
        cases owes
      · rw [unpaidAfter, if_neg isDb] at owes
        exact earlier owes fun other pays => Option.some.inj pays ▸ isDb
    | outcome | boundary | ignored | shed => exact earlier owes fun _ pays => by cases pays

namespace QueueState

structure Books (state : QueueState) : Prop where
  balance : ∀ indexDb, (state.owed.lookup indexDb).getD .none = unpaid indexDb state.log
  owing : ∀ indexDb summary, state.owed.lookup indexDb = some summary → summary.isEmpty = false
  kept : WellKept state.log
  charged : ∀ id, (chargedIds state.log).count id ≤ (recordedIds state.log).count id

variable {state next : QueueState}

/-- An entry that neither owes nor pays. -/
def Neutral (entry : QueueEntry) : Prop :=
  (∀ indexDb summary, unpaidAfter indexDb summary entry = summary) ∧ (∀ log, Admissible log entry) ∧
    chargedIds [entry] = []

theorem neutral_outcome (outcome : JobOutcome) : Neutral (.outcome outcome) :=
  ⟨fun _ _ => rfl, fun _ => trivial, rfl⟩

theorem neutral_boundary (job : Job) (suppressed : Bool) : Neutral (.boundary job suppressed) :=
  ⟨fun _ _ => rfl, fun _ => trivial, rfl⟩

theorem neutral_ignored : Neutral (.ignored indexDb) :=
  ⟨fun _ _ => rfl, fun _ => trivial, rfl⟩

theorem neutral_shed (job : Job) : Neutral (.shed job) :=
  ⟨fun _ _ => rfl, fun _ => trivial, rfl⟩

theorem Books.same (books : state.Books) (owed : next.owed = state.owed)
    (log : next.log = state.log) : next.Books := by
  refine ⟨fun indexDb => ?_, fun indexDb summary => ?_, ?_, fun id => ?_⟩
  · rw [owed, log]
    exact books.balance indexDb
  · rw [owed]
    exact books.owing indexDb summary
  · rw [log]
    exact books.kept
  · rw [log]
    exact books.charged id

theorem Books.note (books : state.Books) {entry : QueueEntry} (neutral : Neutral entry)
    (owed : next.owed = state.owed) (log : next.log = state.log ++ [entry]) : next.Books := by
  refine ⟨fun indexDb => ?_, fun indexDb summary => ?_, ?_, fun id => ?_⟩
  · rw [owed, log, unpaid_snoc, neutral.1]
    exact books.balance indexDb
  · rw [owed]
    exact books.owing indexDb summary
  · rw [log]
    exact books.kept.snoc (neutral.2.1 state.log)
  · have charged := books.charged id
    rw [log, charged_ids_append, neutral.2.2, List.append_nil, recorded_ids_append, List.count_append]
    omega

theorem Books.notes (books : state.Books) {entries : List QueueEntry}
    (neutral : ∀ entry ∈ entries, Neutral entry) (owed : next.owed = state.owed)
    (log : next.log = state.log ++ entries) : next.Books := by
  induction entries generalizing state with
  | nil => exact books.same owed (by rw [log, List.append_nil])
  | cons entry rest ih =>
    have first : ({ state with log := state.log ++ [entry] } : QueueState).Books :=
      books.note (neutral entry List.mem_cons_self) rfl rfl
    refine ih first (fun later member => neutral later (List.mem_cons_of_mem _ member)) owed ?_
    rw [log, List.append_assoc]
    rfl

theorem Books.record_outcome (books : state.Books) (id : Int) (status : JobOutcomeStatus)
    (error : Option String) : (state.recordOutcome id status error).Books :=
  books.note (neutral_outcome ⟨id, status, error⟩) rfl rfl

theorem Books.merge_owed (books : state.Books) (indexDb : String) (summary : ChangeSummary) {source : OwedSource}
    (fromJob : ∀ job, source = .boundary job → job.jobType ≠ .dbMaintenance ∧ job.indexDb = indexDb ∧
      (chargedIds state.log).count job.queueId < (recordedIds state.log).count job.queueId) :
    (state.mergeOwed indexDb summary source).Books := by
  unfold mergeOwed
  extract_lets full entry merged marked
  split
  · exact books
  · rename_i notEmpty
    have someFlag : full.isEmpty = false := Bool.eq_false_of_not_eq_true notEmpty
    have isMarked : marked.Books := by
      refine ⟨fun other => ?_, fun other found => ?_, ?_, fun id => ?_⟩
      · change ((state.owed.insert indexDb merged).lookup other).getD .none =
          unpaid other (state.log ++ [.owes indexDb full source])
        rw [KeyedMap.lookup_insert_eq, unpaid_snoc, unpaidAfter]
        by_cases same : other = indexDb
        · subst same
          rw [if_pos rfl, if_pos rfl, ← books.balance]
          rfl
        · rw [if_neg same, if_neg fun equal => same equal.symm]
          exact books.balance other
      · change (state.owed.insert indexDb merged).lookup other = some found → _
        rw [KeyedMap.lookup_insert_eq]
        split
        · intro same
          rw [← Option.some.inj same]
          exact ChangeSummary.or_with_not_empty someFlag
        · exact books.owing other found
      · exact books.kept.snoc ⟨someFlag, fun job isJob => ⟨(fromJob job isJob).1, (fromJob job isJob).2.1⟩⟩
      · have charged := books.charged id
        change (chargedIds (state.log ++ [.owes indexDb full source])).count id ≤
          (recordedIds (state.log ++ [.owes indexDb full source])).count id
        rw [charged_ids_append, recorded_ids_append, List.count_append, List.count_append]
        cases source with
        | report => exact Nat.add_le_add charged (Nat.le_refl _)
        | boundary job =>
          have room := (fromJob job rfl).2.2
          change _ + [job.queueId].count id ≤ _ + 0
          by_cases same : id = job.queueId
          · subst same
            rw [List.count_singleton_self]
            omega
          · rw [List.count_singleton, if_neg (by simpa using fun equal => same equal.symm)]
            exact charged
    split
    · exact isMarked.same rfl rfl
    · exact isMarked

theorem Books.record_owed (books : state.Books) (job : Job) (summary : Option ChangeSummary)
    (recorded : (chargedIds state.log).count job.queueId < (recordedIds state.log).count job.queueId) :
    (state.recordOwed job summary).Books := by
  unfold recordOwed
  split
  · exact books
  · rename_i other
    refine books.merge_owed _ _ fun charged isJob => ?_
    cases isJob
    exact ⟨other, rfl, recorded⟩

theorem Books.push_maintenance (books : state.Books) (indexDb userDataDb : String)
    (flags : ChangeSummary) (synthesized : Bool) (cleared : next.owed = state.owed.erase indexDb)
    (log : next.log = state.log)
    (fits : if synthesized then flags = unpaid indexDb state.log ∧ flags.isEmpty = false ∧
        ∀ other ∈ next.present, other.indexDb ≠ indexDb
      else flags = .all) :
    (next.pushMaintenanceJob indexDb userDataDb flags synthesized).1.Books := by
  obtain ⟨job, isJob, isMaintenance, carries, isOwed, isLog⟩ : ∃ job : Job, job.indexDb = indexDb ∧
      job.jobType = .dbMaintenance ∧ ChangeSummary.fromMetadata job.metadata = flags ∧
      (next.pushMaintenanceJob indexDb userDataDb flags synthesized).1.owed = state.owed.erase indexDb ∧
      (next.pushMaintenanceJob indexDb userDataDb flags synthesized).1.log =
        state.log ++ [.appended job flags synthesized next.present] :=
    ⟨⟨⟨.dbMaintenance, indexDb, userDataDb, some flags.toMetadata, none, none, none, none⟩,
      next.jobCounter + 1⟩, rfl, rfl, ChangeSummary.from_to_metadata flags, cleared, by rw [← log]; rfl⟩
  subst isJob
  refine ⟨fun other => ?_, fun other found => ?_, ?_, fun id => ?_⟩
  · rw [isOwed, isLog, unpaid_snoc, unpaidAfter, KeyedMap.lookup_erase_eq]
    by_cases same : other = job.indexDb
    · rw [if_pos same, if_pos same.symm]
      rfl
    · rw [if_neg same, if_neg fun equal => same equal.symm]
      exact books.balance other
  · rw [isOwed, KeyedMap.lookup_erase_eq]
    split
    · intro isSome
      cases isSome
    · exact books.owing other found
  · rw [isLog]
    exact books.kept.snoc ⟨isMaintenance, carries, fits⟩
  · have charged := books.charged id
    rw [isLog, charged_ids_append, recorded_ids_append, List.count_append, List.count_append]
    exact Nat.add_le_add charged (Nat.le_refl _)

theorem Books.schedule (books : state.Books) (finished : Job) :
    (state.maybeScheduleMaintenance finished).Books := by
  unfold maybeScheduleMaintenance
  split
  · exact books
  · split
    · exact books
    · rename_i owed isOwed
      split
      · rename_i empty
        rw [books.owing _ _ isOwed] at empty
        cases empty
      · rename_i notEmpty
        split
        · exact books
        · rename_i noneLeft
          refine books.push_maintenance _ _ owed true rfl rfl ?_
          rw [if_pos rfl, ← books.balance, isOwed]
          refine ⟨rfl, Bool.eq_false_of_not_eq_true notEmpty, fun other member same => noneLeft ?_⟩
          exact List.any_eq_true.mpr ⟨other, member, decide_eq_true same⟩

theorem Books.boundary (books : state.Books) (finished : Job) (suppress : Bool) :
    (state.boundary finished suppress).Books := by
  have noted : (state.note (.boundary finished suppress)).Books :=
    books.note (neutral_boundary finished suppress) rfl rfl
  unfold QueueState.boundary
  dsimp only
  split
  · exact noted
  · exact noted.schedule finished

theorem Books.boundaries (books : state.Books) (suppress : Bool) (jobs : List Job) :
    (boundaries suppress jobs state).Books := by
  induction jobs generalizing state with
  | nil => exact books
  | cons job rest ih => exact ih (books.boundary job suppress)

theorem Books.unload (books : state.Books) : state.maybeUnloadBatchModel.Books := by
  unfold maybeUnloadBatchModel
  split
  · exact books
  · split
    · exact books
    · split
      · exact books
      · exact books.same rfl rfl

theorem Books.record_unreported (books : state.Books) (job : Job) :
    (state.recordUnreportedBatchLoad job).Books := by
  unfold recordUnreportedBatchLoad
  split
  · exact books.same rfl rfl
  · exact books

theorem Books.record_batch_load (books : state.Books) (job : Job) (success : Bool)
    (loaded : Option Text) : (state.recordBatchLoad job success loaded).Books := by
  unfold recordBatchLoad
  split
  · exact books.same rfl rfl
  · split
    · exact books.record_unreported job
    · exact books

theorem Books.room (books : state.Books) (id : Int) (status : JobOutcomeStatus)
    (error : Option String) : (chargedIds (state.recordOutcome id status error).log).count id <
      (recordedIds (state.recordOutcome id status error).log).count id := by
  have charged := books.charged id
  change (chargedIds (state.log ++ [.outcome ⟨id, status, error⟩])).count id <
    (recordedIds (state.log ++ [.outcome ⟨id, status, error⟩])).count id
  rw [charged_ids_append, recorded_ids_append, List.count_append, List.count_append]
  change _ + 0 < _ + [id].count id
  rw [List.count_singleton_self]
  omega

theorem Books.confirm_cancel (books : state.Books) (running : Job) (suppress : Bool) :
    (state.confirmCancel running suppress).Books := by
  unfold confirmCancel
  extract_lets outcome owed scheduled
  have stopped : ({ state with runningJob := none } : QueueState).Books := books.same rfl rfl
  have isOutcome : outcome.Books := stopped.record_outcome running.queueId .cancelled none
  have isOwed : owed.Books :=
    (isOutcome.record_owed running none (stopped.room running.queueId .cancelled none)).record_unreported
      running
  have isScheduled : scheduled.Books := isOwed.boundary running suppress
  split
  · exact isScheduled
  · exact isScheduled.unload

theorem Books.finish_running (books : state.Books) (finished : Job) (result : JobRunResult) :
    (state.finishRunning finished result).Books := by
  unfold finishRunning
  extract_lets status recorded outcome owed loaded
  have isRecorded : recorded.Books := books.record_outcome finished.queueId status result.error
  have isOutcome : outcome.Books := isRecorded.same rfl rfl
  have isOwed : owed.Books := isOutcome.record_owed finished result.summary
    (books.room finished.queueId status result.error)
  have isLoaded : loaded.Books := isOwed.record_batch_load finished result.success result.loadedModel
  exact (isLoaded.boundary finished false).unload

theorem Books.push_jobs (books : state.Books) (requests : List JobRequest) : (pushJobs requests state).1.Books := by
  induction requests generalizing state with
  | nil => exact books
  | cons request rest ih =>
    have pushed : (state.append request).1.Books := books.same rfl rfl
    exact ih pushed

theorem Books.cancel_queued (books : state.Books) (ids : List Int) (found : Cancelling) :
    (cancelQueued ids found state).1.Books := by
  induction ids generalizing found state with
  | nil => exact books
  | cons id rest ih =>
    unfold QueueState.cancelQueued
    split
    · exact ih books _
    · split
      · exact ih books _
      · rename_i job isQueued
        have removed : ({ state with
            queuedJobs := state.queuedJobs.erase id
            queue := state.queue.filter (·.queueId ≠ id) } : QueueState).Books := books.same rfl rfl
        exact ih (removed.record_outcome job.queueId .cancelled none) _

theorem Books.record_report (books : state.Books) (indexDb : String) (summary : ChangeSummary) :
    (state.recordReport indexDb summary).Books := by
  unfold recordReport
  split
  · exact books.note (neutral_ignored indexDb) rfl rfl
  · exact books.merge_owed indexDb summary fun _ isJob => by cases isJob

theorem Books.shed (books : state.Books) : state.shed.Books := by
  refine books.notes (fun entry member => ?_) rfl rfl
  obtain ⟨job, -, rfl⟩ := List.mem_map.mp member
  exact neutral_shed job

theorem Books.upgraded (books : state.Books) {indexDb : String} {job : Job}
    (isFor : isMaintenanceFor indexDb job = true) (cleared : next.owed = state.owed.erase indexDb)
    (log : next.log = state.log ++ [.upgraded (upgrade job)]) : next.Books := by
  obtain ⟨isMaintenance, isDb⟩ : job.jobType = .dbMaintenance ∧ job.indexDb = indexDb := by
    simpa [isMaintenanceFor] using isFor
  subst isDb
  have sameDb : (upgrade job).indexDb = job.indexDb := rfl
  refine ⟨fun other => ?_, fun other found => ?_, ?_, fun id => ?_⟩
  · rw [cleared, log, unpaid_snoc, unpaidAfter, KeyedMap.lookup_erase_eq, sameDb]
    by_cases same : other = job.indexDb
    · rw [if_pos same, if_pos same.symm]
      rfl
    · rw [if_neg same, if_neg fun equal => same equal.symm]
      exact books.balance other
  · rw [cleared, KeyedMap.lookup_erase_eq]
    split
    · intro isSome
      cases isSome
    · exact books.owing other found
  · rw [log]
    exact books.kept.snoc ⟨isMaintenance, ChangeSummary.from_to_metadata .all⟩
  · have charged := books.charged id
    rw [log, charged_ids_append, recorded_ids_append, List.count_append, List.count_append]
    exact Nat.add_le_add charged (Nat.le_refl _)

end QueueState

end Panoptikon.Jobs
