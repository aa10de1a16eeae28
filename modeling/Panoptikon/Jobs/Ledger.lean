import Panoptikon.Jobs.Actors
import Mathlib.Data.List.Find

/-!
# Where each job is

Ids are given out one after another, and each id is at one place: in the queue, in
the running slot, among the recorded outcomes, or shed by a shutdown. What the
handlers do to the queue is to append, to take the first, to remove or to shed.
-/

namespace Panoptikon.Jobs

open Foundation

def jobIds (jobs : List Job) : List Int := jobs.map fun job => job.queueId

@[simp] theorem job_ids_nil : jobIds [] = [] := rfl

@[simp] theorem job_ids_cons (job : Job) (rest : List Job) :
    jobIds (job :: rest) = job.queueId :: jobIds rest := rfl

@[simp] theorem job_ids_append (first last : List Job) :
    jobIds (first ++ last) = jobIds first ++ jobIds last := List.map_append

/-- The first job with the id. -/
def findJob (jobs : List Job) (id : Int) : Option Job := jobs.find? fun job => job.queueId = id

theorem find_job_cons (job : Job) (rest : List Job) (id : Int) :
    findJob (job :: rest) id = if job.queueId = id then some job else findJob rest id := by
  by_cases same : job.queueId = id <;> simp [findJob, same]

theorem find_job_append (first last : List Job) (id : Int) :
    findJob (first ++ last) id = (findJob first id).or (findJob last id) := List.find?_append

variable {jobs : List Job} {id : Int}

theorem find_job_is_some : (findJob jobs id).isSome = true ↔ id ∈ jobIds jobs := by
  induction jobs with
  | nil => exact ⟨nofun, nofun⟩
  | cons job rest ih =>
    rw [find_job_cons, job_ids_cons, List.mem_cons, ← ih]
    by_cases same : job.queueId = id
    · simp [same]
    · rw [if_neg same]
      exact (or_iff_right fun equal => same equal.symm).symm

theorem find_job_none (absent : id ∉ jobIds jobs) : findJob jobs id = none :=
  Option.not_isSome_iff_eq_none.mp fun found => absent (find_job_is_some.mp found)

variable {job : Job}

theorem find_job_id (found : findJob jobs id = some job) : job.queueId = id := by
  have isSame := List.find?_some found
  exact of_decide_eq_true isSame

theorem find_job_mem (found : findJob jobs id = some job) : job ∈ jobs := List.mem_of_find?_eq_some found

/-- The outcomes that were recorded, the ones no longer kept among them. -/
def recordedOutcomes (log : List QueueEntry) : List JobOutcome :=
  log.filterMap fun entry =>
    match entry with
    | .outcome outcome => some outcome
    | _ => none

def recordedIds (log : List QueueEntry) : List Int :=
  (recordedOutcomes log).map fun outcome => outcome.queueId

def shedIds (log : List QueueEntry) : List Int :=
  log.filterMap fun entry =>
    match entry with
    | .shed job => some job.queueId
    | _ => none

variable (first last : List QueueEntry)

@[simp] theorem recorded_outcomes_append :
    recordedOutcomes (first ++ last) = recordedOutcomes first ++ recordedOutcomes last :=
  List.filterMap_append

@[simp] theorem recorded_ids_append :
    recordedIds (first ++ last) = recordedIds first ++ recordedIds last := by
  rw [recordedIds, recorded_outcomes_append, List.map_append]
  rfl

@[simp] theorem shed_ids_append :
    shedIds (first ++ last) = shedIds first ++ shedIds last := List.filterMap_append

/-- The ids are the ones behind the first bound up to the last one. -/
structure Numbered (first last : Int) (ids : List Int) : Prop where
  ascending : ids.Pairwise (· < ·)
  covers : ∀ id, id ∈ ids ↔ first < id ∧ id ≤ last

theorem Numbered.nil (bound : Int) : Numbered bound bound [] :=
  ⟨List.Pairwise.nil, fun id => ⟨nofun, fun between => by omega⟩⟩

theorem Numbered.single (bound : Int) : Numbered bound (bound + 1) [bound + 1] :=
  ⟨List.pairwise_singleton _ _, fun id => by rw [List.mem_singleton]; omega⟩

theorem Numbered.append {first middle last : Int} {front back : List Int}
    (isFront : Numbered first middle front) (isBack : Numbered middle last back)
    (ordered : first ≤ middle) (later : middle ≤ last) : Numbered first last (front ++ back) := by
  constructor
  · refine List.pairwise_append.mpr ⟨isFront.ascending, isBack.ascending, ?_⟩
    intro low isLow high isHigh
    have below := (isFront.covers low).mp isLow
    have above := (isBack.covers high).mp isHigh
    omega
  · intro id
    rw [List.mem_append, isFront.covers, isBack.covers]
    omega

theorem Numbered.count {first last : Int} {ids : List Int} (numbered : Numbered first last ids)
    (id : Int) : ids.count id = if first < id ∧ id ≤ last then 1 else 0 := by
  have distinct : ids.Nodup := numbered.ascending.imp fun less => Int.ne_of_lt less
  split
  · rename_i between
    exact List.count_eq_one_of_mem distinct ((numbered.covers id).mpr between)
  · rename_i outside
    exact List.count_eq_zero.mpr fun member => outside ((numbered.covers id).mp member)

namespace QueueState

/-- Nothing but new jobs at the back. -/
structure Grows (before after : QueueState) (added : List Job) : Prop where
  queue : after.queue = before.queue ++ added
  fresh : Numbered before.jobCounter after.jobCounter (jobIds added)
  later : before.jobCounter ≤ after.jobCounter
  index : ∀ id, after.queuedJobs.lookup id =
    (findJob added id).or (before.queuedJobs.lookup id)
  running : after.runningJob = before.runningJob
  shuttingDown : after.shuttingDown = before.shuttingDown
  outcomes : after.outcomes = before.outcomes
  recorded : recordedOutcomes after.log = recordedOutcomes before.log
  shed : shedIds after.log = shedIds before.log

def MayGrow (before after : QueueState) : Prop := ∃ added, Grows before after added

variable {state before middle after : QueueState}

theorem MayGrow.refl (state : QueueState) : MayGrow state state :=
  ⟨[], (List.append_nil _).symm, Numbered.nil _, Int.le_refl _, fun _ => rfl, rfl, rfl, rfl,
    rfl, rfl⟩

theorem MayGrow.trans (first : MayGrow before middle) (second : MayGrow middle after) : MayGrow before after := by
  obtain ⟨added, first⟩ := first
  obtain ⟨more, second⟩ := second
  refine ⟨added ++ more, ?_, ?_, Int.le_trans first.later second.later, fun id => ?_,
    second.running.trans first.running, second.shuttingDown.trans first.shuttingDown,
    second.outcomes.trans first.outcomes, second.recorded.trans first.recorded,
    second.shed.trans first.shed⟩
  · rw [second.queue, first.queue, List.append_assoc]
  · rw [job_ids_append]
    exact first.fresh.append second.fresh first.later second.later
  · rw [second.index, first.index, find_job_append, ← Option.or_assoc]
    congr 1
    cases isMore : findJob more id with
    | none => rw [Option.or_none, Option.none_or]
    | some job =>
      have above := (second.fresh.covers id).mp (find_job_is_some.mp (by rw [isMore]; rfl))
      have absent : id ∉ jobIds added := fun member => by
        have below := (first.fresh.covers id).mp member
        omega
      rw [find_job_none absent]
      rfl

theorem MayGrow.of_same (queue : after.queue = before.queue)
    (index : after.queuedJobs = before.queuedJobs) (counter : after.jobCounter = before.jobCounter)
    (running : after.runningJob = before.runningJob) (shuttingDown : after.shuttingDown = before.shuttingDown)
    (outcomes : after.outcomes = before.outcomes)
    (recorded : recordedOutcomes after.log = recordedOutcomes before.log)
    (shed : shedIds after.log = shedIds before.log) : MayGrow before after := by
  refine ⟨[], ?_, ?_, ?_, fun id => ?_, running, shuttingDown, outcomes, recorded, shed⟩
  · rw [queue, List.append_nil]
  · rw [counter]
    exact Numbered.nil _
  · rw [counter]
  · rw [index]
    rfl

/-- An entry that is neither an outcome nor a job shed. -/
def Plain (entry : QueueEntry) : Prop := recordedOutcomes [entry] = [] ∧ shedIds [entry] = []

theorem note_grows (state : QueueState) {entry : QueueEntry} (plain : Plain entry) :
    MayGrow state (state.note entry) := by
  refine .of_same rfl rfl rfl rfl rfl rfl ?_ ?_
  · change recordedOutcomes (state.log ++ [entry]) = _
    rw [recorded_outcomes_append, plain.1, List.append_nil]
  · change shedIds (state.log ++ [entry]) = _
    rw [shed_ids_append, plain.2, List.append_nil]

theorem append_grows (state : QueueState) (request : JobRequest) : MayGrow state (state.append request).1 := by
  refine ⟨[{ request with queueId := state.jobCounter + 1 }], rfl, Numbered.single _,
    Int.le_of_lt (Int.lt_succ _), fun id => ?_, rfl, rfl, rfl, rfl, rfl⟩
  change (state.queuedJobs.insert (state.jobCounter + 1) _).lookup id = _
  rw [KeyedMap.lookup_insert_eq, find_job_cons]
  by_cases same : id = state.jobCounter + 1
  · rw [if_pos same, if_pos same.symm]
    rfl
  · rw [if_neg same, if_neg fun equal => same equal.symm]
    rfl

theorem push_jobs_grows (requests : List JobRequest) (state : QueueState) :
    MayGrow state (pushJobs requests state).1 := by
  induction requests generalizing state with
  | nil => exact .refl state
  | cons request rest ih => exact (append_grows state request).trans (ih _)

theorem push_maintenance_grows (state : QueueState) (indexDb userDataDb : String)
    (flags : ChangeSummary) (synthesized : Bool) :
    MayGrow state (state.pushMaintenanceJob indexDb userDataDb flags synthesized).1 :=
  (append_grows state _).trans (note_grows _ ⟨rfl, rfl⟩)

theorem merge_owed_grows (state : QueueState) (indexDb : String) (summary : ChangeSummary)
    (source : OwedSource) : MayGrow state (state.mergeOwed indexDb summary source) := by
  have noted (owed : KeyedMap String ChangeSummary) (entry : QueueEntry) (plain : Plain entry) :
      MayGrow state ({ state with owed }.note entry) :=
    (MayGrow.of_same rfl rfl rfl rfl rfl rfl rfl rfl : MayGrow state { state with owed }).trans
      (note_grows _ plain)
  unfold mergeOwed
  dsimp only
  split
  · exact .refl state
  · split
    · exact (noted _ _ ⟨rfl, rfl⟩).trans (.of_same rfl rfl rfl rfl rfl rfl rfl rfl)
    · exact noted _ _ ⟨rfl, rfl⟩

theorem record_owed_grows (state : QueueState) (job : Job) (summary : Option ChangeSummary) :
    MayGrow state (state.recordOwed job summary) := by
  unfold recordOwed
  split
  · exact .refl state
  · exact merge_owed_grows state _ _ _

theorem schedule_grows (state : QueueState) (finished : Job) :
    MayGrow state (state.maybeScheduleMaintenance finished) := by
  unfold maybeScheduleMaintenance
  split
  · exact .refl state
  · split
    · exact .refl state
    · split
      · exact .of_same rfl rfl rfl rfl rfl rfl rfl rfl
      · split
        · exact .refl state
        · extract_lets pendingMarks cleared
          have same : MayGrow state cleared := .of_same rfl rfl rfl rfl rfl rfl rfl rfl
          exact same.trans (push_maintenance_grows cleared _ _ _ _)

theorem boundary_grows (state : QueueState) (finished : Job) (suppress : Bool) :
    MayGrow state (state.boundary finished suppress) := by
  have noted : MayGrow state (state.note (.boundary finished suppress)) := note_grows state ⟨rfl, rfl⟩
  unfold boundary
  dsimp only
  split
  · exact noted
  · exact noted.trans (schedule_grows _ finished)

theorem boundaries_grows (suppress : Bool) (jobs : List Job) (state : QueueState) :
    MayGrow state (boundaries suppress jobs state) := by
  induction jobs generalizing state with
  | nil => exact .refl state
  | cons job rest ih => exact (boundary_grows state job suppress).trans (ih _)

theorem flush_grows (state : QueueState) : MayGrow state state.flushTagsDirtyMarks :=
  .of_same rfl rfl rfl rfl rfl rfl rfl rfl

theorem record_unreported_grows (state : QueueState) (job : Job) :
    MayGrow state (state.recordUnreportedBatchLoad job) := by
  unfold recordUnreportedBatchLoad
  split
  · exact .of_same rfl rfl rfl rfl rfl rfl rfl rfl
  · exact .refl state

theorem record_batch_load_grows (state : QueueState) (job : Job) (success : Bool)
    (loaded : Option Text) : MayGrow state (state.recordBatchLoad job success loaded) := by
  unfold recordBatchLoad
  split
  · exact .of_same rfl rfl rfl rfl rfl rfl rfl rfl
  · split
    · exact record_unreported_grows state job
    · exact .refl state

theorem unload_grows (state : QueueState) : MayGrow state state.maybeUnloadBatchModel := by
  unfold maybeUnloadBatchModel
  split
  · exact .refl state
  · split
    · exact .refl state
    · split
      · exact .refl state
      · exact .of_same rfl rfl rfl rfl rfl rfl rfl rfl

theorem record_report_grows (state : QueueState) (indexDb : String) (summary : ChangeSummary) :
    MayGrow state (state.recordReport indexDb summary) := by
  unfold recordReport
  split
  · exact note_grows state ⟨rfl, rfl⟩
  · exact merge_owed_grows state _ _ _

theorem record_report_queue (state : QueueState) (indexDb : String) (summary : ChangeSummary) :
    (state.recordReport indexDb summary).queue = state.queue := by
  unfold recordReport mergeOwed
  dsimp only
  split
  · rfl
  · split
    · rfl
    · split <;> rfl

/-- Each id is at one place, and the ones in front of the queue come before it. -/
structure Kept (front slot : List Int) (state : QueueState) : Prop where
  order : (front ++ jobIds state.queue).Pairwise (· < ·)
  bound : ∀ id ∈ front, id ≤ state.jobCounter
  index : ∀ id, state.queuedJobs.lookup id = findJob state.queue id
  counted : ∀ id, (jobIds state.queue).count id + slot.count id + (recordedIds state.log).count id +
    (shedIds state.log).count id = if 0 < id ∧ id ≤ state.jobCounter then 1 else 0
  recent : state.outcomes = (recordedOutcomes state.log).drop
    ((recordedOutcomes state.log).length - maxRecentOutcomes)
  counter : 0 ≤ state.jobCounter

variable {front slot : List Int}

theorem Kept.queued_le (kept : Kept front slot state) (member : id ∈ jobIds state.queue) :
    id ≤ state.jobCounter := by
  have counted := kept.counted id
  have some : 0 < (jobIds state.queue).count id := List.count_pos_iff.mpr member
  split at counted <;> omega

theorem Kept.grows (kept : Kept front slot before) (mayGrow : MayGrow before after) : Kept front slot after := by
  obtain ⟨added, grows⟩ := mayGrow
  have ids : jobIds after.queue = jobIds before.queue ++ jobIds added := by
    rw [grows.queue, job_ids_append]
  have below : ∀ id ∈ front ++ jobIds before.queue, id ≤ before.jobCounter := by
    intro id member
    rcases List.mem_append.mp member with isFront | queued
    · exact kept.bound id isFront
    · exact kept.queued_le queued
  refine ⟨?_, fun id member => Int.le_trans (kept.bound id member) grows.later, fun id => ?_,
    fun id => ?_, ?_, Int.le_trans kept.counter grows.later⟩
  · rw [ids, ← List.append_assoc]
    refine List.pairwise_append.mpr ⟨kept.order, grows.fresh.ascending, ?_⟩
    intro low isLow high isHigh
    have above := (grows.fresh.covers high).mp isHigh
    have bound := below low isLow
    omega
  · rw [grows.index, kept.index, grows.queue, find_job_append]
    cases queued : findJob before.queue id with
    | none => rw [Option.or_none, Option.none_or]
    | some job =>
      have bound := kept.queued_le (find_job_is_some.mp (by rw [queued]; rfl))
      have absent : id ∉ jobIds added := fun member => by
        have above := (grows.fresh.covers id).mp member
        omega
      rw [find_job_none absent]
      rfl
  · have counted := kept.counted id
    have fresh := grows.fresh.count id
    have nonnegative := kept.counter
    have later := grows.later
    have recorded : recordedIds after.log = recordedIds before.log := by
      rw [recordedIds, recordedIds, grows.recorded]
    rw [ids, recorded, grows.shed, List.count_append, fresh]
    split <;> split <;> split at counted <;> omega
  · rw [grows.outcomes, grows.recorded, kept.recent]

theorem drop_recent {Elem : Type} (elems : List Elem) (last : Elem) (most : Nat) :
    (elems.drop (elems.length - most) ++ [last]).drop
        ((elems.drop (elems.length - most) ++ [last]).length - most) =
      (elems ++ [last]).drop ((elems ++ [last]).length - most) := by
  have appended : elems.drop (elems.length - most) ++ [last] =
      (elems ++ [last]).drop (elems.length - most) := by
    rw [List.drop_append_of_le_length (Nat.sub_le _ _)]
  rw [appended, List.drop_drop, List.length_drop]
  congr 1
  simp only [List.length_append, List.length_singleton]
  omega

theorem record_outcome_outcomes (state : QueueState) (id : Int) (status : JobOutcomeStatus)
    (error : Option String) :
    (state.recordOutcome id status error).outcomes = (state.outcomes ++ [JobOutcome.mk id status error]).drop
      ((state.outcomes ++ [JobOutcome.mk id status error]).length - maxRecentOutcomes) := by
  simp only [recordOutcome, note]

theorem Kept.record_outcome (kept : Kept front (id :: slot) state)
    (status : JobOutcomeStatus) (error : Option String) :
    Kept front slot (state.recordOutcome id status error) := by
  have recorded : recordedOutcomes (state.recordOutcome id status error).log =
      recordedOutcomes state.log ++ [⟨id, status, error⟩] := recorded_outcomes_append _ _
  have ids : recordedIds (state.recordOutcome id status error).log =
      recordedIds state.log ++ [id] := recorded_ids_append _ _
  have shed : shedIds (state.recordOutcome id status error).log = shedIds state.log := by
    change shedIds (state.log ++ _) = _
    rw [shed_ids_append]
    exact List.append_nil _
  refine ⟨kept.order, kept.bound, kept.index, fun other => ?_, ?_, kept.counter⟩
  · have counted := kept.counted other
    rw [ids, shed, List.count_append]
    rw [List.count_cons] at counted
    rw [List.count_singleton]
    change (jobIds state.queue).count other + _ + _ + _ = _
    change _ = if 0 < other ∧ other ≤ state.jobCounter then 1 else 0
    omega
  · rw [recorded]
    have dropped := drop_recent (recordedOutcomes state.log) ⟨id, status, error⟩ maxRecentOutcomes
    rw [← kept.recent] at dropped
    rw [record_outcome_outcomes, dropped]

section

variable (kept : Kept front slot state)

include kept

theorem Kept.pop {rest : List Job}
    (queue : state.queue = job :: rest) : Kept (front ++ [job.queueId]) (job.queueId :: slot)
      { state with queue := rest, queuedJobs := state.queuedJobs.erase job.queueId } := by
  have order := kept.order
  rw [queue, job_ids_cons] at order
  refine ⟨?_, fun id member => ?_, fun id => ?_, fun id => ?_,
    kept.recent, kept.counter⟩
  · rwa [List.append_assoc]
  · rcases List.mem_append.mp member with isFront | isJob
    · exact kept.bound id isFront
    · rw [List.mem_singleton.mp isJob]
      exact kept.queued_le (by rw [queue]; exact List.mem_cons_self)
  · change (state.queuedJobs.erase job.queueId).lookup id = findJob rest id
    rw [KeyedMap.lookup_erase_eq, kept.index, queue, find_job_cons]
    have ahead := (List.pairwise_cons.mp (List.pairwise_append.mp order).2.1).1
    by_cases same : id = job.queueId
    · rw [if_pos same]
      refine (find_job_none fun member => ?_).symm
      have less := ahead id member
      omega
    · rw [if_neg same, if_neg fun equal => same equal.symm]
  · have counted := kept.counted id
    rw [queue, job_ids_cons, List.count_cons] at counted
    rw [List.count_cons]
    change (jobIds rest).count id + (slot.count id + _) + (recordedIds state.log).count id +
      (shedIds state.log).count id = if 0 < id ∧ id ≤ state.jobCounter then 1 else 0
    omega

theorem Kept.remove (queued : id ∈ jobIds state.queue) : Kept front (id :: slot)
      { state with
        queuedJobs := state.queuedJobs.erase id
        queue := state.queue.filter (·.queueId ≠ id) } := by
  have ids : jobIds (state.queue.filter (·.queueId ≠ id)) =
      (jobIds state.queue).filter (· ≠ id) := by
    rw [jobIds, jobIds, List.filter_map]
    rfl
  have distinct : (jobIds state.queue).Nodup :=
    (List.pairwise_append.mp kept.order).2.1.imp fun less => Int.ne_of_lt less
  refine ⟨?_, kept.bound, fun other => ?_, fun other => ?_, kept.recent, kept.counter⟩
  · rw [ids]
    exact kept.order.sublist (List.filter_sublist.append_left front)
  · change (state.queuedJobs.erase id).lookup other =
      findJob (state.queue.filter (·.queueId ≠ id)) other
    rw [KeyedMap.lookup_erase_eq, kept.index]
    by_cases same : other = id
    · rw [if_pos same]
      refine (find_job_none fun member => ?_).symm
      rw [ids, List.mem_filter] at member
      exact of_decide_eq_true member.2 same
    · rw [if_neg same, findJob, findJob, List.find?_filter]
      refine List.find?_congr ?_
      intro job _
      by_cases isOther : job.queueId = other
      · simp [isOther, same]
      · simp [isOther]
  · have counted := kept.counted other
    rw [ids, List.count_cons]
    by_cases same : other = id
    · subst same
      have one := List.count_eq_one_of_mem distinct queued
      have none : ((jobIds state.queue).filter (· ≠ other)).count other = 0 :=
        List.count_eq_zero.mpr fun member => by simp at member
      rw [none]
      simp only [beq_self_eq_true, if_true]
      change 0 + _ + _ + _ = _
      omega
    · have still : ((jobIds state.queue).filter (· ≠ id)).count other =
          (jobIds state.queue).count other := List.count_filter (by simpa using same)
      rw [still]
      have different : (id == other) = false := by simpa using fun equal => same equal.symm
      rw [different]
      exact counted

theorem Kept.shed : Kept front slot state.shed := by
  have shedAll (jobs : List Job) : shedIds (jobs.map QueueEntry.shed) = jobIds jobs := by
    induction jobs with
    | nil => rfl
    | cons job rest ih => exact congrArg (job.queueId :: ·) ih
  have recordedNone (jobs : List Job) : recordedOutcomes (jobs.map QueueEntry.shed) = [] := by
    induction jobs with
    | nil => rfl
    | cons job rest ih => exact ih
  have recorded : recordedOutcomes state.shed.log = recordedOutcomes state.log := by
    change recordedOutcomes (state.log ++ _) = _
    rw [recorded_outcomes_append, recordedNone, List.append_nil]
  have ids : recordedIds state.shed.log = recordedIds state.log := by
    rw [recordedIds, recordedIds, recorded]
  refine ⟨?_, kept.bound, fun id => ?_, fun id => ?_, ?_, kept.counter⟩
  · exact kept.order.sublist ((List.nil_sublist _).append_left front)
  · change (∅ : KeyedMap Int Job).lookup id = findJob [] id
    simp [findJob]
  · have counted := kept.counted id
    have more : shedIds state.shed.log = shedIds state.log ++ jobIds state.queue := by
      change shedIds (state.log ++ _) = _
      rw [shed_ids_append, shedAll]
    rw [ids, more, List.count_append]
    change 0 + _ + _ + _ = _
    change _ = if 0 < id ∧ id ≤ state.jobCounter then 1 else 0
    omega
  · rw [recorded]
    exact kept.recent

end

/-- A job that is neither in front nor queued was cancelled in the queue or shed. -/
def Placed (front : List Int) (state : QueueState) : Prop :=
  ∀ id, 0 < id → id ≤ state.jobCounter → id ∈ front ∨ id ∈ jobIds state.queue ∨
    JobOutcome.mk id .cancelled none ∈ recordedOutcomes state.log ∨ id ∈ shedIds state.log

theorem Placed.grows (placed : Placed front before) (mayGrow : MayGrow before after) : Placed front after := by
  obtain ⟨added, grows⟩ := mayGrow
  intro id positive bound
  rw [grows.queue, job_ids_append, List.mem_append, grows.recorded, grows.shed]
  by_cases old : id ≤ before.jobCounter
  · rcases placed id positive old with isFront | queued | gone
    · exact .inl isFront
    · exact .inr (.inl (.inl queued))
    · exact .inr (.inr gone)
  · exact .inr (.inl (.inr ((grows.fresh.covers id).mpr ⟨by omega, bound⟩)))

section

variable (placed : Placed front state)

include placed

theorem Placed.record_outcome (id : Int) (status : JobOutcomeStatus) (error : Option String) :
    Placed front (state.recordOutcome id status error) := by
  intro other positive bound
  rcases placed other positive bound with isFront | queued | cancelled | shed
  · exact .inl isFront
  · exact .inr (.inl queued)
  · refine .inr (.inr (.inl ?_))
    change _ ∈ recordedOutcomes (state.log ++ _)
    rw [recorded_outcomes_append]
    exact List.mem_append_left _ cancelled
  · refine .inr (.inr (.inr ?_))
    change _ ∈ shedIds (state.log ++ _)
    rw [shed_ids_append]
    exact List.mem_append_left _ shed

theorem Placed.pop {rest : List Job} (queue : state.queue = job :: rest) : Placed (front ++ [job.queueId])
      { state with queue := rest, queuedJobs := state.queuedJobs.erase job.queueId } := by
  intro id positive bound
  rcases placed id positive bound with isFront | queued | gone
  · exact .inl (List.mem_append_left _ isFront)
  · rw [queue, job_ids_cons] at queued
    rcases List.mem_cons.mp queued with same | behind
    · exact .inl (List.mem_append_right _ (List.mem_singleton.mpr same))
    · exact .inr (.inl behind)
  · exact .inr (.inr gone)

theorem Placed.cancel (id : Int) :
    Placed front (QueueState.recordOutcome
      { state with
        queuedJobs := state.queuedJobs.erase id
        queue := state.queue.filter (·.queueId ≠ id) } id .cancelled none) := by
  intro other positive bound
  change _ ∨ other ∈ jobIds (state.queue.filter (·.queueId ≠ id)) ∨
    _ ∈ recordedOutcomes (state.log ++ _) ∨ other ∈ shedIds (state.log ++ _)
  rw [recorded_outcomes_append, shed_ids_append]
  rcases placed other positive bound with isFront | queued | cancelled | shed
  · exact .inl isFront
  · by_cases same : other = id
    · subst same
      exact .inr (.inr (.inl (List.mem_append_right _ (List.mem_singleton_self _))))
    · obtain ⟨job, isQueued, isId⟩ := List.mem_map.mp queued
      refine .inr (.inl (List.mem_map.mpr ⟨job, List.mem_filter.mpr ⟨isQueued, ?_⟩, isId⟩))
      rw [isId]
      exact decide_eq_true same
  · exact .inr (.inr (.inl (List.mem_append_left _ cancelled)))
  · exact .inr (.inr (.inr (List.mem_append_left _ shed)))

theorem Placed.shed : Placed front state.shed := by
  intro id positive bound
  change _ ∨ id ∈ jobIds [] ∨ _ ∈ recordedOutcomes (state.log ++ _) ∨ id ∈ shedIds (state.log ++ _)
  rw [recorded_outcomes_append, shed_ids_append]
  rcases placed id positive bound with isFront | queued | cancelled | shed
  · exact .inl isFront
  · obtain ⟨job, isQueued, isId⟩ := List.mem_map.mp queued
    refine .inr (.inr (.inr (List.mem_append_right _ ?_)))
    refine List.mem_filterMap.mpr ⟨.shed job, List.mem_map_of_mem isQueued, ?_⟩
    exact congrArg some isId
  · exact .inr (.inr (.inl (List.mem_append_left _ cancelled)))
  · exact .inr (.inr (.inr (List.mem_append_left _ shed)))

end

theorem cancel_queued_keeps (ids : List Int) (found : Cancelling) (state : QueueState)
    (kept : Kept front slot state) (placed : Placed front state) :
    Kept front slot (cancelQueued ids found state).1 ∧
      Placed front (cancelQueued ids found state).1 ∧
      (cancelQueued ids found state).1.runningJob = state.runningJob ∧
      (cancelQueued ids found state).1.shuttingDown = state.shuttingDown := by
  induction ids generalizing found state with
  | nil => exact ⟨kept, placed, rfl, rfl⟩
  | cons id rest ih =>
    unfold cancelQueued
    split
    · exact ih _ state kept placed
    · split
      · exact ih _ state kept placed
      · rename_i job isQueued
        have found := (kept.index id).symm.trans isQueued
        have same := find_job_id found
        have queued : id ∈ jobIds state.queue := find_job_is_some.mp (by rw [found]; rfl)
        dsimp only
        rw [same]
        exact ih _ _ ((kept.remove queued).record_outcome .cancelled none) (placed.cancel id)

theorem confirm_cancel_grows (state : QueueState) (running : Job) (suppress : Bool) :
    MayGrow ({ state with runningJob := none }.recordOutcome running.queueId .cancelled none)
      (state.confirmCancel running suppress) := by
  unfold confirmCancel
  extract_lets outcome owed scheduled
  have isOwed : MayGrow outcome owed :=
    (record_owed_grows outcome running none).trans (record_unreported_grows _ running)
  have isScheduled := isOwed.trans (boundary_grows owed running suppress)
  split
  · exact isScheduled
  · exact isScheduled.trans (unload_grows scheduled)

theorem finish_running_grows (state : QueueState) (finished : Job) (result : JobRunResult) :
    MayGrow ({ state.recordOutcome finished.queueId
        (if result.success then .completed else .failed) result.error with runningJob := none })
      (state.finishRunning finished result) := by
  unfold finishRunning
  extract_lets before status recorded outcome owed loaded
  have isOwed : MayGrow outcome owed := record_owed_grows outcome finished result.summary
  have isLoaded : MayGrow owed loaded :=
    record_batch_load_grows owed finished result.success result.loadedModel
  exact isOwed.trans (isLoaded.trans ((boundary_grows loaded finished false).trans (unload_grows _)))

end QueueState

end Panoptikon.Jobs
