import Panoptikon.Transcode.Slots

/-!
# Nobody waits for a free slot

A dispatch leaves a head that cannot start. What the other handlers do to the
slots and to the head is nothing, but for a cancel that takes the head away.
-/

namespace Panoptikon.Transcode

open Foundation

variable {Work Artifact : Type}

namespace PoolState

/-- The pool is full, an exclusive job is running, or the job is exclusive and another is running. -/
def Blocked (state : PoolState Work Artifact) (id : Nat) : Prop :=
  state.args.maxConcurrent ≤ state.tasks.length ∨
    (∃ task ∈ state.tasks, state.weightOf task = some .exclusive) ∨
    (state.weightOf id = some .exclusive ∧ state.tasks ≠ [])

/-- Unless the pool shuts down, the queue is empty or its head cannot start. -/
def Conserving (state : PoolState Work Artifact) : Prop :=
  state.shuttingDown = false → ∀ id rest, state.queued = id :: rest → state.Blocked id

/-- A cancel of the head leaves a head that cannot start. -/
def UncoversNone (state : PoolState Work Artifact) : PoolEvent Work Artifact → Prop
  | .cancel id => ∀ next rest, state.queued = id :: next :: rest → state.Blocked next
  | _ => True

variable {state middle next : PoolState Work Artifact} {args : PoolArgs} {id : Nat}

/-- No slot changes hands, and a job keeps its weight or is forgotten. -/
structure Idle (state next : PoolState Work Artifact) : Prop where
  tasks : next.tasks = state.tasks
  args : next.args = state.args
  shuttingDown : next.shuttingDown = state.shuttingDown
  numbers : state.nextId ≤ next.nextId
  weights : ∀ id < state.nextId, next.weightOf id = state.weightOf id ∨ next.jobs.lookup id = none

theorem Idle.refl (state : PoolState Work Artifact) : Idle state state :=
  ⟨rfl, rfl, rfl, Nat.le_refl _, fun _ _ => .inl rfl⟩

theorem Idle.trans (first : Idle state middle) (second : Idle middle next) : Idle state next := by
  refine ⟨second.tasks.trans first.tasks, second.args.trans first.args,
    second.shuttingDown.trans first.shuttingDown, Nat.le_trans first.numbers second.numbers, fun id less => ?_⟩
  rcases second.weights id (Nat.lt_of_lt_of_le less first.numbers) with kept | gone
  · rcases first.weights id less with before | gone
    · exact .inl (kept.trans before)
    · right
      rw [weightOf, weightOf, gone, Option.map_none, Option.map_eq_none_iff] at kept
      exact kept
  · exact .inr gone

theorem note_idle (state : PoolState Work Artifact) (entry : PoolEntry Work Artifact) :
    Idle state (state.note entry) := ⟨rfl, rfl, rfl, Nat.le_refl _, fun _ _ => .inl rfl⟩

theorem put_idle (state : PoolState Work Artifact) (changed : JobEntry Work Artifact)
    (weight : id < state.nextId → state.weightOf id = some changed.weight) :
    Idle state { state with jobs := state.jobs.insert id changed } := by
  refine ⟨rfl, rfl, rfl, Nat.le_refl _, fun other less => .inl ?_⟩
  change ((state.jobs.insert id changed).lookup other).map _ = _
  rw [KeyedMap.lookup_insert_eq]
  split
  · rename_i same
    subst same
    exact (weight less).symm
  · rfl

theorem publish_idle (state : PoolState Work Artifact) (entry : JobEntry Work Artifact)
    (event : TranscodeJobEvent Artifact) (weight : id < state.nextId → state.weightOf id = some entry.weight) :
    Idle state (state.publish id entry event) :=
  (put_idle state { entry with event } weight).trans (note_idle _ _)

theorem free_key_idle (state : PoolState Work Artifact) (key : String) (id : Nat) :
    Idle state (state.freeKey key id) := by
  rw [free_key_fields]
  exact ⟨rfl, rfl, rfl, Nat.le_refl _, fun _ _ => .inl rfl⟩

theorem retire_idle (state : PoolState Work Artifact) (now id : Nat) : Idle state (state.retire now id) := by
  refine ⟨rfl, rfl, rfl, Nat.le_refl _, fun other _ => ?_⟩
  rcases (prune_terminal_spec state.args now (state.terminal ++ [(id, now)]) state.jobs).2 other with
    same | ⟨gone, -⟩
  · exact .inl (congrArg (Option.map _) same)
  · exact .inr gone

theorem rebroadcast_from_idle (index : Nat) (ids : List Nat) (state : PoolState Work Artifact) :
    Idle state (rebroadcastFrom index ids state) ∧ (rebroadcastFrom index ids state).queued = state.queued := by
  induction ids generalizing index state with
  | nil => exact ⟨.refl state, rfl⟩
  | cons id rest ih =>
    unfold rebroadcastFrom
    cases found : state.jobs.lookup id with
    | none => exact ih (index + 1) state
    | some entry =>
      dsimp only
      split
      · exact ih (index + 1) state
      · obtain ⟨idle, queued⟩ := ih (index + 1) (state.publish id entry (.queued (index + 1)))
        exact ⟨(publish_idle state entry _ fun _ => weight_of_found found).trans idle, queued⟩

theorem refuse_idle (state : PoolState Work Artifact) (now : Nat) (key error : String) (cancelled : Bool) :
    Idle state (state.refuse now key error cancelled) ∧
      (state.refuse now key error cancelled).queued = state.queued := by
  have created (entry : JobEntry Work Artifact) (event : TranscodeJobEvent Artifact) :
      Idle state ((({ state with nextId := state.nextId + 1 } : PoolState Work Artifact).note
        (.withdrawn state.nextId .refused)).publish state.nextId entry event) := by
    refine ⟨rfl, rfl, rfl, Nat.le_succ _, fun other less => .inl ?_⟩
    change ((state.jobs.insert state.nextId _).lookup other).map _ = _
    rw [KeyedMap.lookup_insert_eq, if_neg (Nat.ne_of_lt less)]
    rfl
  exact ⟨((created _ _).trans (retire_idle _ _ _)).trans (note_idle _ _), rfl⟩

theorem progress_idle (state : PoolState Work Artifact) (id : Nat) (progress : Option UInt32) :
    Idle state (state.progressJob id progress) ∧ (state.progressJob id progress).queued = state.queued := by
  unfold progressJob
  cases found : state.jobs.lookup id with
  | none => exact ⟨.refl state, rfl⟩
  | some entry =>
    dsimp only
    split
    · exact ⟨.refl state, rfl⟩
    · exact ⟨publish_idle state entry _ fun _ => weight_of_found found, rfl⟩

theorem Sound.cancel_idle (sound : state.Sound []) (now id : Nat) :
    Idle state (state.cancelJob now id) ∧ (state.cancelJob now id).queued = state.queued.erase id := by
  unfold cancelJob
  split
  · rename_i found
    refine ⟨note_idle _ _, (List.erase_of_not_mem fun queued => ?_).symm⟩
    obtain ⟨entry, isEntry, -⟩ := sound.live id (.inl queued)
    rw [found] at isEntry
    cases isEntry
  · rename_i entry found
    split
    · rename_i ends
      refine ⟨note_idle _ _, (List.erase_of_not_mem fun queued => ?_).symm⟩
      obtain ⟨other, isOther, isOpen⟩ := sound.live id (.inl queued)
      rw [found] at isOther
      cases isOther
      rw [ends] at isOpen
      cases isOpen
    · extract_lets flagged freed removed published
      have weight : state.weightOf id = some flagged.weight := (weight_of_found found).trans rfl
      have isFreed : Idle state freed :=
        ((put_idle state flagged fun _ => weight).trans (free_key_idle _ _ _)).trans (note_idle _ _)
      have fields : freed = { state with
          jobs := state.jobs.insert id flagged, byKey := freed.byKey, log := state.log ++ [.flagged id] } :=
        congrArg (·.note (.flagged id)) (free_key_fields
          { state with jobs := state.jobs.insert id flagged } entry.key id)
      have sameQueue : freed.queued = state.queued := by rw [fields]
      have weightFreed : freed.weightOf id = some flagged.weight := by
        rw [fields]
        exact weight_of_found (AList.lookup_insert _)
      split
      · have isRemoved : Idle freed removed := ⟨rfl, rfl, rfl, Nat.le_refl _, fun _ _ => .inl rfl⟩
        have isPublished : Idle removed published :=
          (note_idle _ _).trans (publish_idle _ flagged _ fun _ => weightFreed)
        obtain ⟨isBroadcast, queued⟩ := rebroadcast_from_idle 0 (published.retire now id).queued
          (published.retire now id)
        refine ⟨((isFreed.trans isRemoved).trans ((isPublished.trans (retire_idle _ _ _)).trans
          isBroadcast)).trans (note_idle _ _), queued.trans ?_⟩
        change freed.queued.erase id = _
        rw [sameQueue]
      · rename_i absent
        refine ⟨isFreed.trans (note_idle _ _), ?_⟩
        rw [sameQueue] at absent
        exact sameQueue.trans (List.erase_of_not_mem absent).symm

theorem Idle.blocked (idle : Idle state next) (sound : next.Sound []) (known : id < state.nextId)
    (before : state.Sound []) (waits : id ∈ next.queued) : next.Blocked id ↔ state.Blocked id := by
  have weight (job : Nat) (isKnown : job < state.nextId) (live : next.Live [] job) :
      next.weightOf job = state.weightOf job := by
    rcases idle.weights job isKnown with same | gone
    · exact same
    · obtain ⟨entry, found, -⟩ := sound.live job live
      rw [gone] at found
      cases found
  unfold Blocked
  rw [idle.args, idle.tasks, weight id known (.inl waits)]
  apply or_congr_right
  apply or_congr_left
  apply exists_congr
  intro task
  apply and_congr_right
  intro running
  rw [weight task (before.live_lt (.inr (.inl running))) (.inr (.inl (idle.tasks ▸ running)))]

theorem Conserving.idle (conserving : state.Conserving) (idle : Idle state next)
    (before : state.Sound []) (sound : next.Sound []) (queued : next.queued = state.queued) : next.Conserving := by
  intro running id rest isQueue
  have waits : id ∈ next.queued := by
    rw [isQueue]
    exact List.mem_cons_self
  rw [idle.blocked sound (before.live_lt (.inl (queued ▸ waits))) before waits]
  exact conserving (idle.shuttingDown.symm.trans running) id rest (queued.symm.trans isQueue)

/-- The checks of a dispatch fail on the head. -/
def Stalled (state : PoolState Work Artifact) : Prop :=
  ∀ id rest, state.queued = id :: rest → state.shuttingDown = true ∨ state.args.maxConcurrent ≤ state.running ∨
    state.exclusiveRunning = true ∨ (state.weightOf id = some .exclusive ∧ 0 < state.running)

theorem start_job_queued {started : PoolState Work Artifact} (starting : state.startJob id = some started) :
    started.queued = state.queued := by
  unfold startJob at starting
  cases found : state.jobs.lookup id with
  | none =>
    rw [found] at starting
    cases starting
  | some entry =>
    rw [found] at starting
    dsimp only at starting
    cases isPending : entry.pending with
    | none =>
      rw [isPending] at starting
      cases starting
    | some work =>
      rw [isPending] at starting
      cases starting
      rfl

theorem fail_undispatchable_queued (state : PoolState Work Artifact) (now id : Nat) :
    (state.failUndispatchable now id).queued = state.queued := by
  unfold failUndispatchable
  cases state.jobs.lookup id with
  | none => rfl
  | some entry =>
    dsimp only
    rw [free_key_fields]
    rfl

theorem dispatch_loop_stalled (now : Nat) (ids : List Nat) (state : PoolState Work Artifact)
    (queue : state.queued = ids) : (dispatchLoop now ids state).Stalled := by
  induction ids generalizing state with
  | nil =>
    intro id rest isQueue
    rw [dispatchLoop, queue] at isQueue
    cases isQueue
  | cons id rest ih =>
    have stays (reason : state.shuttingDown = true ∨ state.args.maxConcurrent ≤ state.running ∨
        state.exclusiveRunning = true ∨ (state.weightOf id = some .exclusive ∧ 0 < state.running)) :
        state.Stalled := by
      intro head others isQueue
      rw [queue] at isQueue
      cases isQueue
      exact reason
    unfold dispatchLoop
    split
    · rename_i full
      rw [Bool.or_eq_true, decide_eq_true_eq] at full
      exact stays (full.imp_right .inl)
    · split
      · rename_i exclusive
        exact stays (.inr (.inr (.inl exclusive)))
      · extract_lets weight popped
        split
        · rename_i notAlone
          exact stays (.inr (.inr (.inr notAlone)))
        · split
          · exact ih _ (fail_undispatchable_queued popped now id)
          · rename_i started starting
            exact ih _ (start_job_queued starting)

theorem Stalled.publish (stalled : state.Stalled) {entry : JobEntry Work Artifact}
    (found : state.jobs.lookup id = some entry) (event : TranscodeJobEvent Artifact) :
    (state.publish id entry event).Stalled := by
  intro head rest isQueue
  have weight : (state.publish id entry event).weightOf head = state.weightOf head := by
    change ((state.jobs.insert id _).lookup head).map _ = _
    rw [KeyedMap.lookup_insert_eq]
    split
    · rename_i same
      subst same
      exact (weight_of_found found).symm
    · rfl
  rw [weight]
  exact stalled head rest isQueue

theorem Stalled.rebroadcast_from (stalled : state.Stalled) (index : Nat) (ids : List Nat) :
    (rebroadcastFrom index ids state).Stalled := by
  induction ids generalizing index state with
  | nil => exact stalled
  | cons id rest ih =>
    unfold rebroadcastFrom
    cases found : state.jobs.lookup id with
    | none => exact ih stalled (index + 1)
    | some entry =>
      dsimp only
      split
      · exact ih stalled (index + 1)
      · exact ih (stalled.publish found _) (index + 1)

theorem dispatch_stalled (state : PoolState Work Artifact) (now : Nat) : (state.dispatch now).Stalled :=
  (dispatch_loop_stalled now state.queued state rfl).rebroadcast_from 0 _

/-- The counter and the flag that a dispatch checks say what the tasks are. -/
theorem Stalled.conserving (stalled : state.Stalled) (slots : state.Slots args) : state.Conserving := by
  intro running id rest isQueue
  rcases stalled id rest isQueue with shutting | full | exclusive | ⟨exclusive, some_⟩
  · rw [running] at shutting
    cases shutting
  · left
    rw [← slots.running]
    exact full
  · exact .inr (.inl (slots.exclusive.mp exclusive))
  · refine .inr (.inr ⟨exclusive, ?_⟩)
    rw [slots.running] at some_
    exact List.length_pos_iff.mp some_

theorem Whole.submit_conserving (whole : state.Whole args) (conserving : state.Conserving) (now : Nat)
    (request : SubmitRequest Work) (cached : Option Artifact) (knownFailure : Option String) :
    (state.submitJob now request cached knownFailure).Conserving := by
  have after := whole.submit now request cached knownFailure
  have refused (error : String) (cancelled : Bool) : (state.refuse now request.key error cancelled).Conserving := by
    obtain ⟨idle, queued⟩ := refuse_idle state now request.key error cancelled
    exact conserving.idle idle whole.sound (whole.refuse now request.key error cancelled).sound queued
  unfold submitJob at after ⊢
  split
  · exact conserving.idle (note_idle _ _) whole.sound (whole.submitted _).sound rfl
  · split
    · exact conserving.idle (note_idle _ _) whole.sound (whole.submitted _).sound rfl
    · split
      · exact refused _ _
      · rename_i running
        split
        · exact refused _ _
        · have isWhole := whole.submit_new now request (eq_false_of_ne_true running)
          refine Stalled.conserving ?_ isWhole.slots
          exact dispatch_stalled _ now

theorem Whole.finish_conserving (whole : state.Whole args) (now : Nat) {id : Nat} (outcome : JobOutcome Artifact)
    (running : id ∈ state.tasks) :
    (finishJob { state with tasks := state.tasks.erase id } now id outcome).Conserving := by
  refine Stalled.conserving ?_ (whole.finish now outcome running).slots
  obtain ⟨entry, found, -⟩ := whole.sound.live id (.inr (.inl running))
  unfold finishJob
  split
  · rename_i none
    exact absurd (found.symm.trans none) (Option.some_ne_none entry)
  · exact dispatch_stalled _ now

theorem Whole.shutdown_shutting (whole : state.Whole args) (now reply : Nat) :
    (state.shutdown now reply).shuttingDown = true := by
  have isMoved : Sound state.queued { state with queued := [] } := whole.sound.move [] state.tasks
    (fun id => by rw [List.count_nil]; omega) (List.nil_sublist _) fun _ member => member
  obtain ⟨-, quiet, -⟩ := isMoved.shutting.drop_queued now rfl
  unfold PoolState.shutdown
  extract_lets dropped flagged
  have shutting : dropped.shuttingDown = true := quiet.shuttingDown
  split <;> exact shutting

/-- A message keeps everyone from waiting for a free slot, when it is not a cancel that uncovers
a job that could start. -/
theorem Whole.handle_conserving (whole : state.Whole args) (conserving : state.Conserving) (now : Nat)
    (event : PoolEvent Work Artifact) (uncovers : state.UncoversNone event) : (state.handle now event).Conserving := by
  have after := whole.handle now event
  cases event with
  | submit request cached knownFailure => exact whole.submit_conserving conserving now request cached knownFailure
  | cancel id =>
    obtain ⟨idle, queued⟩ := whole.sound.cancel_idle now id
    intro running head rest isQueue
    have waits : head ∈ (state.cancelJob now id).queued := by
      change (state.cancelJob now id).queued = _ at isQueue
      rw [isQueue]
      exact List.mem_cons_self
    have known : head ∈ state.queued := List.mem_of_mem_erase (queued ▸ waits)
    apply (idle.blocked after.sound (whole.sound.live_lt (.inl known)) whole.sound waits).mpr
    change (state.cancelJob now id).queued = _ at isQueue
    rw [queued] at isQueue
    cases before : state.queued with
    | nil =>
      rw [before] at known
      cases known
    | cons first others =>
      rw [before, List.erase_cons] at isQueue
      split at isQueue
      · rename_i same
        rw [beq_iff_eq] at same
        subst same
        subst isQueue
        exact uncovers head rest before
      · cases isQueue
        exact conserving (idle.shuttingDown.symm.trans running) head others before
  | progress id progress =>
    change (if id ∈ startedIds state.log then state.progressJob id progress else state).Conserving
    split
    · rename_i isStarted
      obtain ⟨idle, queued⟩ := progress_idle state id progress
      exact conserving.idle idle whole.sound (whole.progress progress isStarted).sound queued
    · exact conserving
  | finished id outcome =>
    change (if id ∈ state.tasks then
      finishJob { state with tasks := state.tasks.erase id } now id outcome else state).Conserving
    split
    · rename_i running
      exact whole.finish_conserving now outcome running
    · exact conserving
  | shutdown reply =>
    intro running
    rw [show (state.handle now (.shutdown reply)).shuttingDown = true from whole.shutdown_shutting now reply] at running
    cases running

theorem Whole.cancel_uncovers (whole : state.Whole args) (now : Nat) {event : PoolEvent Work Artifact}
    (uncovers : ¬state.UncoversNone event) : ¬(state.handle now event).Conserving := by
  have after := whole.handle now event
  cases event with
  | cancel id =>
    intro conserving
    apply uncovers
    intro head rest before
    obtain ⟨idle, queued⟩ := whole.sound.cancel_idle now id
    rw [before, List.erase_cons_head] at queued
    have waits : head ∈ (state.cancelJob now id).queued := by
      rw [queued]
      exact List.mem_cons_self
    have known : head ∈ state.queued := by
      rw [before]
      exact List.mem_cons_of_mem _ List.mem_cons_self
    apply (idle.blocked after.sound (whole.sound.live_lt (.inl known)) whole.sound waits).mp
    apply conserving _ head rest queued
    apply idle.shuttingDown.trans
    cases shutting : state.shuttingDown with
    | false => rfl
    | true =>
      rw [whole.draining.emptied shutting] at before
      cases before
  | submit | progress | finished | shutdown => exact absurd trivial uncovers

end PoolState

/-- Nobody waits for a free slot in the runs in which no cancel uncovers a job that could start. -/
theorem conserving_exact_iff (args : PoolArgs) (events : List (Nat × PoolEvent Work Artifact)) :
    (∀ before, before <+: events → ((poolMachine Work Artifact args).run before).Conserving) ↔
      (poolMachine Work Artifact args).AdmittedRun (fun state event => state.UncoversNone event.2) events := by
  apply (poolMachine Work Artifact args).prefixes_good_iff
    (fun state => state.Whole args.atLeastOne ∧ state.Conserving)
  · refine ⟨whole_init args, ?_⟩
    intro _ id rest isQueue
    cases isQueue
  · exact fun state both => both.2
  · intro state event admitted both
    exact ⟨both.1.handle event.1 event.2, both.1.handle_conserving both.2 event.1 event.2 admitted⟩
  · intro state event refused both
    exact both.1.cancel_uncovers event.1 refused

/-- A light job runs, an exclusive one waits for it and a light one behind that: the exclusive one
is cancelled, and the last one does not start although a slot is free. -/
theorem uncovered_job_waits : ¬∀ (args : PoolArgs) (events : List (Nat × PoolEvent Unit Unit)),
    ((poolMachine Unit Unit args).run events).Conserving := by
  intro claimed
  have blocked := claimed ⟨2, 900, 512⟩
    [(0, .submit ⟨"a", .light, ()⟩ none none), (1, .submit ⟨"b", .exclusive, ()⟩ none none),
      (2, .submit ⟨"c", .light, ()⟩ none none), (3, .cancel 1)] (by decide +kernel) 2 [] (by decide +kernel)
  rcases blocked with full | alone | ⟨exclusive, -⟩
  · revert full
    decide +kernel
  · revert alone
    decide +kernel
  · revert exclusive
    decide +kernel

end Panoptikon.Transcode
