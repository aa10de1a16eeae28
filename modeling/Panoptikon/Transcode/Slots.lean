import Panoptikon.Transcode.Settling

/-!
# The slots of the pool

The running count is the number of tasks, an exclusive job is alone, positions are
those of the queue, and a shutdown is answered when no task is left. Together with
where each job is they hold after every message.
-/

namespace Panoptikon.Transcode

open Foundation

variable {Work Artifact : Type}

namespace PoolState

def weightOf (state : PoolState Work Artifact) (id : Nat) : Option JobWeight :=
  (state.jobs.lookup id).map fun entry => entry.weight

structure Slots (state : PoolState Work Artifact) (args : PoolArgs) : Prop where
  capped : state.args = args
  running : state.running = state.tasks.length
  most : state.running ≤ args.maxConcurrent
  exclusive : state.exclusiveRunning = true ↔
    ∃ id ∈ state.tasks, state.weightOf id = some .exclusive
  alone : ∀ id ∈ state.tasks, state.weightOf id = some .exclusive → state.tasks = [id]

structure Draining (state : PoolState Work Artifact) : Prop where
  emptied : state.shuttingDown = true → state.queued = []
  awaiting : state.awaitingDrain.isSome = true → state.shuttingDown = true
  drained : ∀ reply, .drained reply ∈ state.log → state.shuttingDown = true ∧ state.tasks = []

/-- The reported positions are those in the queue. -/
def Positioned (state : PoolState Work Artifact) : Prop :=
  ∀ index id, state.queued[index]? = some id → ∃ entry, state.jobs.lookup id = some entry ∧
    entry.event = .queued (index + 1)

/-- Jobs may change, but no slot does. -/
structure Quiet (state next : PoolState Work Artifact) : Prop where
  tasks : next.tasks = state.tasks
  running : next.running = state.running
  exclusive : next.exclusiveRunning = state.exclusiveRunning
  args : next.args = state.args
  shuttingDown : next.shuttingDown = state.shuttingDown
  awaitingDrain : next.awaitingDrain = state.awaitingDrain
  weights : ∀ id ∈ state.tasks, next.weightOf id = state.weightOf id
  drained : ∀ reply, .drained reply ∈ next.log → .drained reply ∈ state.log

variable {state middle next : PoolState Work Artifact} {args : PoolArgs} {aside : List Nat} {id : Nat}

theorem Quiet.refl (state : PoolState Work Artifact) : Quiet state state :=
  ⟨rfl, rfl, rfl, rfl, rfl, rfl, fun _ _ => rfl, fun _ member => member⟩

theorem Quiet.trans (first : Quiet state middle) (second : Quiet middle next) : Quiet state next :=
  ⟨second.tasks.trans first.tasks, second.running.trans first.running,
    second.exclusive.trans first.exclusive, second.args.trans first.args,
    second.shuttingDown.trans first.shuttingDown, second.awaitingDrain.trans first.awaitingDrain,
    fun id member => (second.weights id (first.tasks.symm ▸ member)).trans (first.weights id member),
    fun reply member => first.drained reply (second.drained reply member)⟩

theorem Slots.quiet (slots : state.Slots args) (quiet : Quiet state next) : next.Slots args := by
  refine ⟨quiet.args.trans slots.capped, ?_, ?_, ?_, fun id member isExclusive => ?_⟩
  · rw [quiet.running, quiet.tasks, slots.running]
  · rw [quiet.running]
    exact slots.most
  · rw [quiet.exclusive, quiet.tasks, slots.exclusive]
    constructor
    · rintro ⟨id, member, isExclusive⟩
      exact ⟨id, member, (quiet.weights id member).trans isExclusive⟩
    · rintro ⟨id, member, isExclusive⟩
      exact ⟨id, member, (quiet.weights id member).symm.trans isExclusive⟩
  · rw [quiet.tasks] at member ⊢
    exact slots.alone id member ((quiet.weights id member).symm.trans isExclusive)

theorem Draining.quiet (draining : state.Draining) (quiet : Quiet state next)
    (queued : state.queued = [] → next.queued = []) : next.Draining := by
  refine ⟨fun shutting => queued (draining.emptied (quiet.shuttingDown.symm.trans shutting)),
    fun awaits => ?_, fun reply member => ?_⟩
  · rw [quiet.awaitingDrain] at awaits
    rw [quiet.shuttingDown]
    exact draining.awaiting awaits
  · rw [quiet.shuttingDown, quiet.tasks]
    exact draining.drained reply (quiet.drained reply member)

theorem note_quiet (state : PoolState Work Artifact) {entry : PoolEntry Work Artifact}
    (other : ∀ reply, entry ≠ .drained reply) : Quiet state (state.note entry) := by
  refine ⟨rfl, rfl, rfl, rfl, rfl, rfl, fun _ _ => rfl, fun reply member => ?_⟩
  rcases List.mem_append.mp member with old | new
  · exact old
  · exact absurd (List.mem_singleton.mp new).symm (other reply)

theorem put_quiet (state : PoolState Work Artifact) (changed : JobEntry Work Artifact)
    (weight : id ∈ state.tasks → state.weightOf id = some changed.weight) :
    Quiet state { state with jobs := state.jobs.insert id changed } := by
  refine ⟨rfl, rfl, rfl, rfl, rfl, rfl, fun other member => ?_, fun _ member => member⟩
  change ((state.jobs.insert id changed).lookup other).map _ = _
  rw [KeyedMap.lookup_insert_eq]
  split
  · rename_i same
    subst same
    exact (weight member).symm
  · rfl

theorem publish_quiet (state : PoolState Work Artifact) (entry : JobEntry Work Artifact)
    (event : TranscodeJobEvent Artifact) (weight : id ∈ state.tasks → state.weightOf id = some entry.weight) :
    Quiet state (state.publish id entry event) :=
  (put_quiet state { entry with event } weight).trans
    (note_quiet _ fun reply same => by cases same)

variable {entry : JobEntry Work Artifact}

theorem weight_of_found (found : state.jobs.lookup id = some entry) : state.weightOf id = some entry.weight := by
  rw [weightOf, found]
  rfl

theorem free_key_quiet (state : PoolState Work Artifact) (key : String) (id : Nat) :
    Quiet state (state.freeKey key id) := by
  rw [free_key_fields]
  exact ⟨rfl, rfl, rfl, rfl, rfl, rfl, fun _ _ => rfl, fun _ member => member⟩

theorem Sound.retire_quiet (sound : state.Sound aside) (now : Nat)
    (isSettled : id ∈ settledIds state.log) : Quiet state (state.retire now id) := by
  refine ⟨rfl, rfl, rfl, rfl, rfl, rfl, fun other member => ?_, fun _ member => member⟩
  rw [weightOf, weightOf, (sound.retire now isSettled).2 other (sound.open_of_live (.inr (.inl member)))]

/-- What a broadcast of positions leaves. -/
structure Broadcast (index : Nat) (ids : List Nat) (state next : PoolState Work Artifact) : Prop where
  quiet : Quiet state next
  queued : next.queued = state.queued
  others : ∀ other, other ∉ ids → next.jobs.lookup other = state.jobs.lookup other
  positions : ∀ at_ id, ids[at_]? = some id → ∃ entry, next.jobs.lookup id = some entry ∧
    entry.event = .queued (index + at_ + 1)

theorem event_of_queued_at {event : TranscodeJobEvent Artifact} {position : Nat}
    (isAt : event.isQueuedAt position = true) : event = .queued position := by
  cases event with
  | queued at_ => exact congrArg _ (of_decide_eq_true isAt)
  | running | done | failed => cases isAt

theorem Sound.rebroadcast_from (sound : state.Sound aside) (index : Nat) (ids : List Nat)
    (distinct : ids.Nodup) (isQueued : ∀ id ∈ ids, id ∈ state.queued) :
    (rebroadcastFrom index ids state).Sound aside ∧
      Broadcast index ids state (rebroadcastFrom index ids state) := by
  induction ids generalizing index state with
  | nil => exact ⟨sound, .refl state, rfl, fun _ _ => rfl, fun _ _ found => by cases found⟩
  | cons id rest ih =>
    obtain ⟨entry, found, -⟩ := sound.live id (.inl (isQueued id List.mem_cons_self))
    have fresh := (List.nodup_cons.mp distinct).1
    have step (changed : PoolState Work Artifact) (isSound : changed.Sound aside)
        (quiet : Quiet state changed) (queued : changed.queued = state.queued)
        (others : ∀ other, other ≠ id → changed.jobs.lookup other = state.jobs.lookup other)
        (own : ∃ entry, changed.jobs.lookup id = some entry ∧ entry.event = .queued (index + 1)) :
        (rebroadcastFrom (index + 1) rest changed).Sound aside ∧
          Broadcast index (id :: rest) state (rebroadcastFrom (index + 1) rest changed) := by
      obtain ⟨soundAfter, broadcast⟩ := ih isSound (index + 1) (List.nodup_cons.mp distinct).2
        fun other member => queued.symm ▸ isQueued other (List.mem_cons_of_mem _ member)
      refine ⟨soundAfter, quiet.trans broadcast.quiet, broadcast.queued.trans queued,
        fun other absent => ?_, fun at_ other isAt => ?_⟩
      · rw [List.mem_cons, not_or] at absent
        exact (broadcast.others other absent.2).trans (others other absent.1)
      · cases at_ with
        | zero =>
          cases isAt
          obtain ⟨entry, isEntry, isEvent⟩ := own
          exact ⟨entry, (broadcast.others id fresh).trans isEntry, isEvent⟩
        | succ at_ =>
          obtain ⟨entry, isEntry, isEvent⟩ := broadcast.positions at_ other isAt
          refine ⟨entry, isEntry, isEvent.trans ?_⟩
          rw [Nat.add_assoc index 1 at_, Nat.add_comm 1 at_]
    unfold rebroadcastFrom
    rw [found]
    dsimp only
    split
    · rename_i isAt
      exact step state sound (.refl state) rfl (fun _ _ => rfl) ⟨entry, found, event_of_queued_at isAt⟩
    · refine step (state.publish id entry (.queued (index + 1)))
        (sound.publish (.inl (isQueued id List.mem_cons_self)) found rfl)
        (publish_quiet state entry _ fun _ => weight_of_found found) rfl (fun other different => ?_)
        ⟨{ entry with event := .queued (index + 1) }, ?_, rfl⟩
      · change (state.jobs.insert id _).lookup other = _
        rw [KeyedMap.lookup_insert_eq, if_neg different]
      · change (state.jobs.insert id _).lookup id = _
        rw [KeyedMap.lookup_insert_eq, if_pos rfl]

theorem Sound.queued_nodup (sound : state.Sound aside) : state.queued.Nodup :=
  (List.pairwise_append.mp sound.order).2.1.imp fun less => Nat.ne_of_lt less

theorem Sound.rebroadcast (sound : state.Sound aside) :
    state.rebroadcastPositions.Sound aside ∧ Quiet state state.rebroadcastPositions ∧
      state.rebroadcastPositions.queued = state.queued ∧ state.rebroadcastPositions.Positioned := by
  obtain ⟨isSound, broadcast⟩ := sound.rebroadcast_from 0 state.queued sound.queued_nodup fun _ member => member
  refine ⟨isSound, broadcast.quiet, broadcast.queued, fun index id isAt => ?_⟩
  rw [rebroadcastPositions, broadcast.queued] at isAt
  obtain ⟨entry, isEntry, isEvent⟩ := broadcast.positions index id isAt
  refine ⟨entry, isEntry, isEvent.trans ?_⟩
  rw [Nat.zero_add]

theorem Slots.start {rest : List Nat} (slots : state.Slots args)
    (starts : Starts state next id rest entry) (absent : id ∉ state.tasks)
    (free : state.running < args.maxConcurrent) (noneExclusive : state.exclusiveRunning = false)
    (fits : ¬(state.weightOf id = some .exclusive ∧ 0 < state.running)) :
    ({ next with
      running := next.running + 1
      exclusiveRunning := decide (state.weightOf id = some .exclusive) || next.exclusiveRunning } :
        PoolState Work Artifact).Slots args := by
  have tasks : next.tasks = state.tasks ++ [id] := by rw [starts.next]
  have running : next.running = state.running := by rw [starts.next]
  have exclusive : next.exclusiveRunning = false := by rw [starts.next, noneExclusive]
  have sameArgs : next.args = state.args := by rw [starts.next]
  have own : next.weightOf id = state.weightOf id := by
    rw [weightOf, starts.lookup, if_pos rfl, weight_of_found starts.found]
    rfl
  have others (other : Nat) (member : other ∈ state.tasks) : next.weightOf other = state.weightOf other := by
    have apart : other ≠ id := fun same => absent (same ▸ member)
    rw [weightOf, starts.lookup, if_neg apart]
    rfl
  have noneBefore (other : Nat) (member : other ∈ state.tasks) :
      state.weightOf other ≠ some .exclusive := by
    intro isExclusive
    rw [slots.exclusive.mpr ⟨other, member, isExclusive⟩] at noneExclusive
    cases noneExclusive
  refine ⟨sameArgs.trans slots.capped, ?_, ?_, ?_, fun other member isExclusive => ?_⟩
  · change next.running + 1 = next.tasks.length
    rw [running, tasks, List.length_append, List.length_singleton, slots.running]
  · change next.running + 1 ≤ args.maxConcurrent
    rw [running]
    exact free
  · change (decide (state.weightOf id = some .exclusive) || next.exclusiveRunning) = true ↔
      ∃ other ∈ next.tasks, next.weightOf other = some .exclusive
    rw [exclusive, Bool.or_false, decide_eq_true_iff, tasks]
    constructor
    · intro isExclusive
      exact ⟨id, List.mem_append_right _ (List.mem_singleton_self _), own.trans isExclusive⟩
    · rintro ⟨other, member, isExclusive⟩
      rcases List.mem_append.mp member with old | new
      · exact absurd ((others other old).symm.trans isExclusive) (noneBefore other old)
      · rw [List.mem_singleton.mp new] at isExclusive
        exact own.symm.trans isExclusive
  · change other ∈ next.tasks at member
    change next.tasks = [other]
    change next.weightOf other = some .exclusive at isExclusive
    rw [tasks] at member ⊢
    rcases List.mem_append.mp member with old | new
    · exact absurd ((others other old).symm.trans isExclusive) (noneBefore other old)
    · have same := List.mem_singleton.mp new
      subst same
      have empty : state.tasks.length = 0 := by
        rw [← slots.running]
        by_contra some_
        exact fits ⟨own.symm.trans isExclusive, by omega⟩
      rw [List.eq_nil_of_length_eq_zero empty]
      rfl

/-- What holds of a pool between two messages, but for the positions. -/
structure Pooled (state : PoolState Work Artifact) (args : PoolArgs) : Prop where
  sound : state.Sound []
  slots : state.Slots args
  draining : state.Draining

theorem Pooled.dispatch_loop (now : Nat) (ids : List Nat) (pooled : state.Pooled args)
    (queue : state.queued = ids) : (dispatchLoop now ids state).Pooled args := by
  induction ids generalizing state with
  | nil => exact pooled
  | cons id rest ih =>
    unfold dispatchLoop
    split
    · exact pooled
    · rename_i free
      rw [Bool.or_eq_true, not_or, decide_eq_true_eq, pooled.slots.capped] at free
      split
      · exact pooled
      · rename_i noneExclusive
        extract_lets weight popped
        split
        · exact pooled
        · rename_i fits
          obtain ⟨entry, started, starting, starts, isSound⟩ := pooled.sound.start queue
          rw [starting]
          dsimp only
          have counted := pooled.sound.counted id
          rw [queue, List.count_cons_self] at counted
          have absent : id ∉ state.tasks := by
            refine List.count_eq_zero.mp ?_
            split at counted <;> omega
          have isSlots := pooled.slots.start starts absent (by omega)
            (eq_false_of_ne_true noneExclusive) fits
          have running : state.shuttingDown = false := eq_false_of_ne_true free.1
          have shutting : started.shuttingDown = false := by rw [starts.next, running]
          have isDraining : ({ started with
              running := started.running + 1
              exclusiveRunning := decide (weight = some .exclusive) || started.exclusiveRunning } :
              PoolState Work Artifact).Draining := by
            refine ⟨fun isShutting => ?_, fun awaits => ?_, fun reply member => ?_⟩
            · exact absurd (shutting.symm.trans isShutting) Bool.false_ne_true
            · have same : started.awaitingDrain = state.awaitingDrain := by rw [starts.next]
              change started.awaitingDrain.isSome = true at awaits
              rw [same] at awaits
              exact absurd (running.symm.trans (pooled.draining.awaiting awaits)) Bool.false_ne_true
            · obtain ⟨work, log⟩ := starts.log
              change PoolEntry.drained reply ∈ started.log at member
              rw [log] at member
              rcases List.mem_append.mp member with old | new
              · exact absurd (running.symm.trans (pooled.draining.drained reply old).1)
                  Bool.false_ne_true
              · rcases List.mem_cons.mp new with same | last
                · cases same
                · cases List.mem_singleton.mp last
          have soundNext : Sound [] { started with
              running := started.running + 1
              exclusiveRunning := decide (weight = some .exclusive) || started.exclusiveRunning } :=
            ⟨isSound.counted, isSound.live, isSound.waiting, isSound.settled, isSound.known,
              isSound.retired, isSound.keys, isSound.final, isSound.order, isSound.begun, isSound.bound,
              isSound.passed, isSound.flagged⟩
          have queued : started.queued = rest := by rw [starts.next]
          exact ih ⟨soundNext, isSlots, isDraining⟩ queued

theorem Pooled.dispatch (pooled : state.Pooled args) (now : Nat) :
    (state.dispatch now).Pooled args ∧ (state.dispatch now).Positioned := by
  have looped := pooled.dispatch_loop now state.queued rfl
  obtain ⟨isSound, quiet, queued, positioned⟩ := looped.sound.rebroadcast
  refine ⟨⟨isSound, looped.slots.quiet quiet, looped.draining.quiet quiet fun none => ?_⟩, positioned⟩
  exact queued.trans none

/-- What holds after every message. -/
structure Whole (state : PoolState Work Artifact) (args : PoolArgs) : Prop extends Pooled state args where
  positioned : state.Positioned

theorem Whole.note (whole : state.Whole args) {entry : PoolEntry Work Artifact}
    (noneSettled : settledIds [entry] = []) (noneStarted : startedIds [entry] = [])
    (notPublished : ∀ id event, entry ≠ .published id event) (notFlagged : ∀ id, entry ≠ .flagged id)
    (notDrained : ∀ reply, entry ≠ .drained reply) : (state.note entry).Whole args := by
  have quiet := note_quiet state notDrained
  exact ⟨⟨whole.sound.note noneSettled noneStarted (fun id event same => absurd same (notPublished id event))
      fun id same => absurd same (notFlagged id),
    whole.slots.quiet quiet, whole.draining.quiet quiet fun none => none⟩, whole.positioned⟩

theorem Whole.submitted (whole : state.Whole args) (outcome : SubmitOutcome Artifact) :
    (state.note (.submitted outcome)).Whole args :=
  whole.note rfl rfl (fun _ _ same => by cases same) (fun _ same => by cases same)
    (fun _ same => by cases same)

theorem Whole.cancel_reply (whole : state.Whole args) (found : Bool) :
    (state.note (.cancelReply found)).Whole args :=
  whole.note rfl rfl (fun _ _ same => by cases same) (fun _ same => by cases same)
    (fun _ same => by cases same)

theorem Sound.withdraw (sound : state.Sound aside) (id : Nat) (reason : Withdrawal) :
    (state.note (.withdrawn id reason)).Sound aside :=
  sound.note rfl rfl (fun _ _ same => by cases same) fun _ same => by cases same

theorem withdraw_quiet (state : PoolState Work Artifact) (id : Nat) (reason : Withdrawal) :
    Quiet state (state.note (.withdrawn id reason)) := note_quiet state fun _ same => by cases same

theorem Positioned.keep (positioned : state.Positioned) (queued : next.queued = state.queued)
    (lookup : ∀ id ∈ state.queued, next.jobs.lookup id = state.jobs.lookup id) : next.Positioned := by
  intro index id isAt
  rw [queued] at isAt
  rw [lookup id (List.mem_of_getElem? isAt)]
  exact positioned index id isAt

theorem Whole.refuse (whole : state.Whole args) (now : Nat) (key error : String) (cancelled : Bool) :
    (state.refuse now key error cancelled).Whole args := by
  have sound := whole.sound
  obtain ⟨-, notLive, -⟩ := sound.fresh
  let event : TranscodeJobEvent Artifact := .failed error cancelled
  let born : JobEntry Work Artifact := ⟨key, .light, false, .queued 0, none⟩
  let created : PoolState Work Artifact :=
    { state with nextId := state.nextId + 1, jobs := state.jobs.insert state.nextId born }
  have isCreated : created.Sound [state.nextId] := sound.create born rfl
  have isWithdrawn := isCreated.withdraw state.nextId .refused
  have found : (created.note (.withdrawn state.nextId .refused)).jobs.lookup state.nextId = some born :=
    AList.lookup_insert _
  have ends : event.isTerminal = true := rfl
  obtain ⟨isSettled, settled⟩ := isWithdrawn.settle found ends
    (.inr ⟨.refused, List.mem_append_right _ (List.mem_singleton_self _)⟩)
  have notHeld : state.byKey.lookup key ≠ some state.nextId := fun held =>
    notLive (sound.keys key state.nextId held).1
  have inserted : ((created.note (.withdrawn state.nextId .refused)).publish state.nextId born
      event).freeKey born.key state.nextId =
      (({ state with nextId := state.nextId + 1 } : PoolState Work Artifact).note
        (.withdrawn state.nextId .refused)).publish state.nextId ⟨key, .light, false, event, none⟩ event := by
    refine Eq.trans (free_key_of_absent ?_) ?_
    · exact notHeld
    unfold publish PoolState.note
    dsimp only [created]
    rw [AList.insert_insert]
  rw [inserted] at isSettled settled
  have quiet : Quiet state ((({ state with nextId := state.nextId + 1 } : PoolState Work Artifact).note
      (.withdrawn state.nextId .refused)).publish state.nextId ⟨key, .light, false, event, none⟩ event) := by
    have renumbered : Quiet state { state with nextId := state.nextId + 1 } :=
      ⟨rfl, rfl, rfl, rfl, rfl, rfl, fun _ _ => rfl, fun _ member => member⟩
    refine (renumbered.trans (withdraw_quiet _ _ _)).trans (publish_quiet _ _ event fun running => ?_)
    exact absurd (.inr (.inl running)) notLive
  have retired := isSettled.retire now settled
  have quietAll := quiet.trans (isSettled.retire_quiet now settled)
  have isWhole : (state.insertTerminalJob now key event).1.Whole args := by
    refine ⟨⟨retired.1, whole.slots.quiet quietAll, whole.draining.quiet quietAll fun none => none⟩, ?_⟩
    refine whole.positioned.keep rfl fun id queued => ?_
    have live : (((({ state with nextId := state.nextId + 1 } : PoolState Work Artifact).note
      (.withdrawn state.nextId .refused)).publish state.nextId
        ⟨key, .light, false, event, none⟩ event)).Live [] id := .inl queued
    have different : id ≠ state.nextId := fun same => notLive (.inl (same ▸ queued))
    refine (retired.2 id (isSettled.open_of_live live)).trans ?_
    change (state.jobs.insert state.nextId _).lookup id = _
    rw [KeyedMap.lookup_insert_eq, if_neg different]
  exact isWhole.submitted _

theorem Whole.submit_new (whole : state.Whole args) (now : Nat) (request : SubmitRequest Work)
    (running : state.shuttingDown = false) : (state.submitNew now request).Whole args := by
  have sound := whole.sound
  obtain ⟨notSettled, notLive, -⟩ := sound.fresh
  unfold submitNew
  extract_lets id event entry inserted keyed dispatched
  have created : Sound [id] { state with nextId := id + 1, jobs := state.jobs.insert id entry } :=
    sound.create entry rfl
  have isInserted : inserted.Sound [id] := by
    refine created.note ?_ rfl (fun other event_ same => ?_) fun _ same => by cases same
    · rw [settled_published]
      rfl
    · cases same
      exact notSettled
  have found : inserted.jobs.lookup id = some entry := AList.lookup_insert _
  have last : ∀ other ∈ startedIds inserted.log ++ inserted.queued, other < id := by
    intro other member
    change other ∈ startedIds (state.log ++ [_]) ++ state.queued at member
    rw [started_ids_append] at member
    rcases List.mem_append.mp member with started | queued
    · exact sound.bound other (by simpa [startedIds] using started)
    · exact sound.live_lt (.inl queued)
  have unflagged : .flagged id ∉ inserted.log := by
    intro member
    rcases List.mem_append.mp member with old | new
    · exact absurd (sound.flagged id old).1 (Nat.lt_irrefl _)
    · cases List.mem_singleton.mp new
  have isKeyed : keyed.Sound [] := isInserted.enqueue found rfl rfl last unflagged
  have quiet : Quiet state keyed := by
    have renumbered : Quiet state { state with nextId := id + 1 } :=
      ⟨rfl, rfl, rfl, rfl, rfl, rfl, fun _ _ => rfl, fun _ member => member⟩
    have isQuiet := renumbered.trans (@publish_quiet Work Artifact id _ entry event fun member =>
      absurd (.inr (.inl member)) notLive)
    exact isQuiet.trans ⟨rfl, rfl, rfl, rfl, rfl, rfl, fun _ _ => rfl, fun _ member => member⟩
  have isPooled : keyed.Pooled args := by
    refine ⟨isKeyed, whole.slots.quiet quiet, ?_, ?_, ?_⟩
    · intro shutting
      exact absurd (running.symm.trans shutting) Bool.false_ne_true
    · exact fun awaits => whole.draining.awaiting awaits
    · intro reply member
      exact whole.draining.drained reply (quiet.drained reply member)
  obtain ⟨isDispatched, positioned⟩ := isPooled.dispatch now
  exact Whole.submitted ⟨isDispatched, positioned⟩ _

theorem Whole.submit (whole : state.Whole args) (now : Nat) (request : SubmitRequest Work)
    (cached : Option Artifact) (knownFailure : Option String) :
    (state.submitJob now request cached knownFailure).Whole args := by
  unfold submitJob
  split
  · exact whole.submitted _
  · split
    · exact whole.submitted _
    · split
      · exact whole.refuse now _ _ _
      · rename_i running
        split
        · exact whole.refuse now _ _ _
        · exact whole.submit_new now request (eq_false_of_ne_true running)

variable {id : Nat}

theorem Whole.progress (whole : state.Whole args) (progress : Option UInt32)
    (isStarted : id ∈ startedIds state.log) : (state.progressJob id progress).Whole args := by
  have sound := whole.sound
  unfold progressJob
  split
  · exact whole
  · rename_i entry found
    split
    · exact whole
    · rename_i isOpen
      have notQueued : id ∉ state.queued := fun queued => by
        have less := (List.pairwise_append.mp sound.order).2.2 id isStarted id queued
        omega
      have live := sound.live_of_open found (eq_false_of_ne_true isOpen)
      have quiet := publish_quiet state entry (.running progress) fun _ => weight_of_found found
      refine ⟨⟨sound.publish live found rfl, whole.slots.quiet quiet,
        whole.draining.quiet quiet fun none => none⟩, whole.positioned.keep rfl fun other queued => ?_⟩
      have different : other ≠ id := fun same => notQueued (same ▸ queued)
      change (state.jobs.insert id _).lookup other = _
      rw [KeyedMap.lookup_insert_eq, if_neg different]

theorem count_erase_add {ids : List Nat} (member : id ∈ ids) (other : Nat) :
    (ids.erase id).count other + [id].count other = ids.count other := by
  have positive : 0 < ids.count id := List.count_pos_iff.mpr member
  rw [List.count_erase, List.count_singleton]
  by_cases same : id = other
  · subst same
    rw [beq_self_eq_true, if_pos rfl]
    omega
  · have different : (id == other) = false := by simpa using same
    rw [different, if_neg Bool.false_ne_true]
    rfl

theorem Sound.flag (sound : state.Sound aside)
    (found : state.jobs.lookup id = some entry) (isOpen : entry.event.isTerminal = false) :
    ((freeKey { state with jobs := state.jobs.insert id { entry with cancel := true } } entry.key
      id).note (.flagged id)).Sound aside := by
  have swapped : freeKey { state with jobs := state.jobs.insert id { entry with cancel := true } }
      entry.key id = { state.freeKey entry.key id with
        jobs := (state.freeKey entry.key id).jobs.insert id { entry with cancel := true } } := by
    unfold freeKey
    split <;> rfl
  have fields := free_key_fields state entry.key id
  have live := sound.live_of_open found isOpen
  rw [swapped]
  have liveFreed : (state.freeKey entry.key id).Live aside id := by
    rw [fields]
    exact live
  have foundFreed : (state.freeKey entry.key id).jobs.lookup id = some entry := by
    rw [fields]
    exact found
  have isPut := (sound.free_key entry.key id).put { entry with cancel := true } liveFreed foundFreed rfl
    isOpen (fun _ => rfl) fun held => absurd held (freed_key state entry.key id)
  refine isPut.note rfl rfl (fun _ _ same => by cases same) fun other same => ?_
  cases same
  refine ⟨?_, fun key held => ?_⟩
  · rw [fields]
    exact sound.live_lt live
  · obtain ⟨-, holder, isHolder, sameKey, -⟩ := (sound.free_key entry.key id).keys key id held
    rw [foundFreed] at isHolder
    cases isHolder
    subst sameKey
    exact freed_key state entry.key id held

theorem Whole.cancel (whole : state.Whole args) (now id : Nat) : (state.cancelJob now id).Whole args := by
  have sound := whole.sound
  unfold cancelJob
  split
  · exact whole.cancel_reply false
  · rename_i entry found
    split
    · exact whole.cancel_reply false
    · rename_i isOpen
      extract_lets flagged freed removed published
      have isFreed : freed.Sound [] := sound.flag found (eq_false_of_ne_true isOpen)
      have fields : freed = { state with
          jobs := state.jobs.insert id flagged, byKey := freed.byKey, log := state.log ++ [.flagged id] } :=
        congrArg (·.note (.flagged id)) (free_key_fields
          { state with jobs := state.jobs.insert id flagged } entry.key id)
      have foundFreed : freed.jobs.lookup id = some flagged := by
        rw [fields]
        exact AList.lookup_insert _
      have quietFreed : Quiet state freed :=
        ((put_quiet state flagged fun _ => (weight_of_found found).trans rfl).trans
          (free_key_quiet _ _ _)).trans (note_quiet _ fun _ same => by cases same)
      have noKey : freed.byKey.lookup flagged.key ≠ some id := freed_key _ _ _
      have sameQueue : freed.queued = state.queued := by rw [fields]
      split
      · rename_i queued
        have isRemoved : removed.Sound [id] := isFreed.move _ _
          (fun other => by
            have count := count_erase_add queued other
            rw [List.count_nil]
            omega)
          List.erase_sublist fun _ member => member
        have isWithdrawn := isRemoved.withdraw id .cancelled
        have ends : (TranscodeJobEvent.failed "cancelled" true : TranscodeJobEvent Artifact).isTerminal =
            true := rfl
        obtain ⟨isSettled, settled⟩ := isWithdrawn.settle foundFreed ends
          (.inr ⟨.cancelled, List.mem_append_right _ (List.mem_singleton_self _)⟩)
        have unheld : published.freeKey flagged.key id = published := free_key_of_absent noKey
        change (published.freeKey flagged.key id).Sound [] at isSettled
        change id ∈ settledIds (published.freeKey flagged.key id).log at settled
        rw [unheld] at isSettled settled
        obtain ⟨isRetired, -⟩ := isSettled.retire now settled
        obtain ⟨isBroadcast, quiet, sameAfter, positioned⟩ := isRetired.rebroadcast
        have quietRemoved : Quiet freed removed :=
          ⟨rfl, rfl, rfl, rfl, rfl, rfl, fun _ _ => rfl, fun _ member => member⟩
        have quietPublished : Quiet removed published := (withdraw_quiet removed id .cancelled).trans
          (publish_quiet _ flagged _ fun _ => weight_of_found foundFreed)
        have quietAll := (quietFreed.trans quietRemoved).trans
          ((quietPublished.trans (isSettled.retire_quiet now settled)).trans quiet)
        refine Whole.cancel_reply ⟨⟨isBroadcast, whole.slots.quiet quietAll,
          whole.draining.quiet quietAll fun none => ?_⟩, positioned⟩ true
        rw [sameAfter]
        change freed.queued.erase id = []
        rw [sameQueue, none]
        rfl
      · refine Whole.cancel_reply ⟨⟨isFreed, whole.slots.quiet quietFreed,
          whole.draining.quiet quietFreed fun none => sameQueue.trans none⟩, fun index other isAt => ?_⟩ true
        rw [sameQueue] at isAt
        obtain ⟨before, isBefore, isEvent⟩ := whole.positioned index other isAt
        rw [fields]
        change ∃ entry, (state.jobs.insert id flagged).lookup other = some entry ∧ _
        rw [KeyedMap.lookup_insert_eq]
        split
        · rename_i same
          subst same
          rw [found] at isBefore
          cases isBefore
          exact ⟨flagged, rfl, isEvent⟩
        · exact ⟨before, isBefore, isEvent⟩

theorem Slots.finish (slots : state.Slots args) (running : id ∈ state.tasks) (distinct : state.tasks.Nodup)
    (tasks : next.tasks = state.tasks.erase id) (fewer : next.running = state.running - 1)
    (exclusive : next.exclusiveRunning =
      if state.weightOf id = some .exclusive then false else state.exclusiveRunning)
    (sameArgs : next.args = state.args)
    (weights : ∀ other ∈ next.tasks, next.weightOf other = state.weightOf other) : next.Slots args := by
  have subset : ∀ other ∈ next.tasks, other ∈ state.tasks ∧ other ≠ id := by
    intro other member
    rw [tasks, distinct.mem_erase_iff] at member
    exact ⟨member.2, member.1⟩
  have most := slots.most
  refine ⟨sameArgs.trans slots.capped, ?_, ?_, ?_, fun other member isExclusive => ?_⟩
  · rw [fewer, tasks, List.length_erase_of_mem running, slots.running]
  · rw [fewer]
    omega
  · rw [exclusive]
    split
    · rename_i own
      refine ⟨nofun, ?_⟩
      rintro ⟨other, member, -⟩
      obtain ⟨isTask, different⟩ := subset other member
      rw [slots.alone id running own] at isTask
      exact absurd (List.mem_singleton.mp isTask) different
    · rename_i notOwn
      rw [slots.exclusive]
      constructor
      · rintro ⟨other, member, isExclusive⟩
        have different : other ≠ id := fun same => notOwn (same ▸ isExclusive)
        have stays : other ∈ next.tasks := by
          rw [tasks]
          exact (List.mem_erase_of_ne different).mpr member
        exact ⟨other, stays, (weights other stays).trans isExclusive⟩
      · rintro ⟨other, member, isExclusive⟩
        exact ⟨other, (subset other member).1, (weights other member).symm.trans isExclusive⟩
  · obtain ⟨isTask, different⟩ := subset other member
    have alone := slots.alone other isTask ((weights other member).symm.trans isExclusive)
    rw [alone] at running
    exact absurd (List.mem_singleton.mp running).symm different

theorem Sound.tasks_nodup (sound : state.Sound aside) : state.tasks.Nodup := by
  refine List.nodup_iff_count_le_one.mpr fun id => ?_
  have counted := sound.counted id
  split at counted <;> omega

theorem Whole.finish (whole : state.Whole args) (now : Nat) (outcome : JobOutcome Artifact)
    (running : id ∈ state.tasks) :
    (finishJob { state with tasks := state.tasks.erase id } now id outcome).Whole args := by
  have sound := whole.sound
  have distinct := sound.tasks_nodup
  obtain ⟨entry, found, -⟩ := sound.live id (.inr (.inl running))
  have isMoved : Sound [id] { state with tasks := state.tasks.erase id } := sound.move _ _
    (fun other => by
      have count := count_erase_add running other
      rw [List.count_nil]
      omega)
    (List.Sublist.refl _) fun _ member => List.mem_of_mem_erase member
  have ends : outcome.event.isTerminal = true := by cases outcome <;> rfl
  obtain ⟨isFreed, settled⟩ := isMoved.settle found ends (.inl (sound.begun id running))
  unfold finishJob
  split
  · rename_i none
    exact absurd (found.symm.trans none) (Option.some_ne_none entry)
  · rename_i other isOther
    obtain rfl : entry = other := Option.some.inj (found.symm.trans isOther)
    extract_lets freed stopped retired answered
    have isStopped : stopped.Sound [] :=
      ⟨isFreed.counted, isFreed.live, isFreed.waiting, isFreed.settled, isFreed.known, isFreed.retired,
        isFreed.keys, isFreed.final, isFreed.order, isFreed.begun, isFreed.bound, isFreed.passed, isFreed.flagged⟩
    have settledStopped : id ∈ settledIds stopped.log := settled
    obtain ⟨isRetired, kept⟩ := isStopped.retire now settledStopped
    have fields : freed = { state with
        tasks := state.tasks.erase id
        jobs := state.jobs.insert id { entry with event := outcome.event }
        log := state.log ++ [.published id outcome.event]
        byKey := freed.byKey } := free_key_fields _ _ _
    have retiredTasks : retired.tasks = state.tasks.erase id := by
      change freed.tasks = _
      rw [fields]
    have weights (other : Nat) (member : other ∈ retired.tasks) :
        retired.weightOf other = state.weightOf other := by
      have isTask : other ∈ stopped.tasks := member
      have different : other ≠ id := by
        rw [retiredTasks, distinct.mem_erase_iff] at member
        exact member.1
      rw [weightOf, kept other (isStopped.open_of_live (.inr (.inl isTask)))]
      change (freed.jobs.lookup other).map _ = _
      rw [fields]
      change ((state.jobs.insert id _).lookup other).map _ = _
      rw [KeyedMap.lookup_insert_eq, if_neg different]
      rfl
    have slots : retired.Slots args := by
      refine whole.slots.finish running distinct retiredTasks ?_ ?_ ?_ weights
      · change freed.running - 1 = _
        rw [fields]
      · change (if entry.weight = JobWeight.exclusive then false else freed.exclusiveRunning) = _
        rw [fields, weight_of_found found]
        by_cases isExclusive : entry.weight = .exclusive
        · rw [if_pos isExclusive, if_pos (by rw [isExclusive])]
        · rw [if_neg isExclusive, if_neg fun same => isExclusive (Option.some.inj same)]
      · change freed.args = _
        rw [fields]
    have draining : retired.Draining := by
      refine ⟨fun shutting => ?_, fun awaits => ?_, fun reply member => ?_⟩
      · change freed.queued = []
        change freed.shuttingDown = true at shutting
        rw [fields] at shutting ⊢
        exact whole.draining.emptied shutting
      · change freed.shuttingDown = true
        change freed.awaitingDrain.isSome = true at awaits
        rw [fields] at awaits ⊢
        exact whole.draining.awaiting awaits
      · change PoolEntry.drained reply ∈ freed.log at member
        rw [fields] at member
        rcases List.mem_append.mp member with old | new
        · have none := (whole.draining.drained reply old).2
          rw [none] at running
          cases running
        · cases List.mem_singleton.mp new
    have pooled : answered.Pooled args := by
      unfold answered
      split
      · rename_i noneLeft
        split
        · rename_i reply awaits
          have isSound : Sound [] ({ retired with awaitingDrain := none } : PoolState Work Artifact) :=
            ⟨isRetired.counted, isRetired.live, isRetired.waiting, isRetired.settled, isRetired.known,
              isRetired.retired, isRetired.keys, isRetired.final, isRetired.order, isRetired.begun,
              isRetired.bound, isRetired.passed, isRetired.flagged⟩
          have shutting := draining.awaiting (by rw [awaits]; rfl)
          have empty : retired.tasks = [] := by
            refine List.eq_nil_of_length_eq_zero ?_
            rw [← slots.running, noneLeft]
          refine ⟨isSound.note rfl rfl (fun _ _ same => by cases same) (fun _ same => by cases same),
            ⟨slots.capped, slots.running, slots.most, slots.exclusive, slots.alone⟩, draining.emptied, nofun,
            fun _ _ => ⟨shutting, empty⟩⟩
        · exact ⟨isRetired, slots, draining⟩
      · exact ⟨isRetired, slots, draining⟩
    obtain ⟨isDispatched, positioned⟩ := pooled.dispatch now
    exact ⟨isDispatched, positioned⟩

theorem Sound.drop_queued (sound : state.Sound aside) (now : Nat) (empty : state.queued = []) :
    (dropQueued now aside state).Sound [] ∧ Quiet state (dropQueued now aside state) ∧
      (dropQueued now aside state).queued = [] := by
  induction aside generalizing state with
  | nil => exact ⟨sound, .refl state, empty⟩
  | cons id rest ih =>
    obtain ⟨entry, found, -⟩ := sound.live id (.inr (.inr List.mem_cons_self))
    have isWithdrawn := sound.withdraw id .shutdown
    have ends : (TranscodeJobEvent.failed "server is shutting down" true :
        TranscodeJobEvent Artifact).isTerminal = true := rfl
    obtain ⟨isSettled, settled⟩ := isWithdrawn.settle found ends
      (.inr ⟨.shutdown, List.mem_append_right _ (List.mem_singleton_self _)⟩)
    have isRetired := (isSettled.retire now settled).1
    have quiet := ((withdraw_quiet state id .shutdown).trans (publish_quiet _ entry
      (.failed "server is shutting down" true) fun _ => weight_of_found found)).trans
      ((free_key_quiet _ entry.key id).trans (isSettled.retire_quiet now settled))
    unfold dropQueued
    rw [found]
    dsimp only
    have stillEmpty : (((state.note (.withdrawn id .shutdown)).publish id entry
        (.failed "server is shutting down" true)).freeKey entry.key id).queued = [] := by
      rw [free_key_fields]
      exact empty
    obtain ⟨isSound, isQuiet, isEmpty⟩ := ih isRetired stillEmpty
    exact ⟨isSound, quiet.trans isQuiet, isEmpty⟩

theorem Whole.shutdown (whole : state.Whole args) (now reply : Nat) : (state.shutdown now reply).Whole args := by
  have sound := whole.sound
  have isMoved : Sound state.queued { state with queued := [] } := sound.move [] state.tasks
    (fun id => by rw [List.count_nil]; omega) (List.nil_sublist _) fun _ member => member
  obtain ⟨isDropped, quiet, empty⟩ := isMoved.shutting.drop_queued now rfl
  unfold PoolState.shutdown
  extract_lets dropped flagged
  have shutting : dropped.shuttingDown = true := quiet.shuttingDown
  have isFlagged : flagged.Sound [] := isDropped.flag_all shutting
  have quietFlagged : Quiet { state with shuttingDown := true, queued := [] } flagged := by
    refine quiet.trans ⟨rfl, rfl, rfl, rfl, rfl, rfl, fun id _ => ?_, fun _ member => member⟩
    rw [weightOf, weightOf, KeyedMap.lookup_map_values, Option.map_map]
    rfl
  have slots : flagged.Slots args := by
    have before : ({ state with shuttingDown := true, queued := [] } : PoolState Work Artifact).Slots args :=
      ⟨whole.slots.capped, whole.slots.running, whole.slots.most, whole.slots.exclusive,
        whole.slots.alone⟩
    exact before.quiet quietFlagged
  have drained (reply_ : Nat) (member : .drained reply_ ∈ flagged.log) : flagged.tasks = [] := by
    rw [quietFlagged.tasks]
    exact (whole.draining.drained reply_ (quietFlagged.drained reply_ member)).2
  have positioned {next : PoolState Work Artifact} (queued : next.queued = []) : next.Positioned := by
    intro index id isAt
    rw [queued] at isAt
    cases isAt
  split
  · rename_i noneRuns
    have none : flagged.tasks = [] := by
      refine List.eq_nil_of_length_eq_zero ?_
      rw [← slots.running, noneRuns]
    exact ⟨⟨isFlagged.note rfl rfl (fun _ _ same => by cases same) (fun _ same => by cases same),
      ⟨slots.capped, slots.running, slots.most, slots.exclusive, slots.alone⟩, fun _ => empty, fun _ => shutting,
      fun _ _ => ⟨shutting, none⟩⟩, positioned empty⟩
  · refine ⟨⟨?_, ⟨slots.capped, slots.running, slots.most, slots.exclusive, slots.alone⟩, fun _ => empty,
      fun _ => shutting, fun reply_ member => ⟨shutting, drained reply_ member⟩⟩, positioned empty⟩
    exact ⟨isFlagged.counted, isFlagged.live, isFlagged.waiting, isFlagged.settled, isFlagged.known,
      isFlagged.retired, isFlagged.keys, isFlagged.final, isFlagged.order, isFlagged.begun, isFlagged.bound,
      isFlagged.passed, isFlagged.flagged⟩

theorem Whole.handle (whole : state.Whole args) (now : Nat) (event : PoolEvent Work Artifact) :
    (state.handle now event).Whole args := by
  cases event with
  | submit request cached knownFailure => exact whole.submit now request cached knownFailure
  | cancel id => exact whole.cancel now id
  | progress id progress =>
    change (if id ∈ startedIds state.log then state.progressJob id progress else state).Whole args
    split
    · rename_i isStarted
      exact whole.progress progress isStarted
    · exact whole
  | finished id outcome =>
    change (if id ∈ state.tasks then
      finishJob { state with tasks := state.tasks.erase id } now id outcome else state).Whole args
    split
    · rename_i running
      exact whole.finish now outcome running
    · exact whole
  | shutdown reply => exact whole.shutdown now reply

end PoolState

/-- The bound the pool starts with. -/
def PoolArgs.atLeastOne (args : PoolArgs) : PoolArgs :=
  { args with maxConcurrent := max args.maxConcurrent 1 }

theorem whole_init (args : PoolArgs) : (poolMachine Work Artifact args).init.Whole args.atLeastOne := by
  have sound : (poolMachine Work Artifact args).init.Sound [] := by
    refine ⟨fun id => ?_, fun id live => ?_, nofun, fun _ _ found => ?_, fun _ _ found => ?_, nofun,
      fun _ _ isKey => ?_, fun before _ _ _ split => ?_, List.Pairwise.nil, nofun, nofun,
      fun id less => absurd less (Nat.not_lt_zero id), nofun⟩
    · exact (if_neg (Nat.not_lt_zero id)).symm
    · rcases live with queued | running | later
      · cases queued
      · cases running
      · cases later
    · cases found
    · cases found
    · cases isKey
    · cases before <;> cases split
  refine ⟨⟨sound, ⟨rfl, rfl, Nat.zero_le _, ⟨nofun, ?_⟩, nofun⟩, ⟨nofun, nofun, nofun⟩⟩, fun _ _ isAt => ?_⟩
  · rintro ⟨_, member, -⟩
    cases member
  · cases isAt

theorem whole_run (args : PoolArgs) (events : List (Nat × PoolEvent Work Artifact)) :
    ((poolMachine Work Artifact args).run events).Whole args.atLeastOne :=
  (poolMachine Work Artifact args).run_invariant (fun state => state.Whole args.atLeastOne)
    (fun _ _ => True) (whole_init args) (fun _ event _ whole => whole.handle event.1 event.2) events
    (Machine.admitted_run_of_forall _ fun _ _ => trivial)

namespace PoolState

structure Safe (state : PoolState Work Artifact) (args : PoolArgs) : Prop where
  running : state.running = state.tasks.length
  most : state.running ≤ max args.maxConcurrent 1
  exclusive : ∀ id ∈ state.tasks, state.weightOf id = some .exclusive → state.tasks = [id]
  /-- Jobs start once and in the order of their submits, before the ones queued. -/
  order : (startedIds state.log ++ state.queued).Pairwise (· < ·)
  begun : ∀ id ∈ state.tasks, id ∈ startedIds state.log
  /-- A job that was passed over was cancelled, refused, or dropped by a shutdown. -/
  passed : ∀ id other, id < other → other ∈ startedIds state.log → id ∈ startedIds state.log ∨
    ∃ reason, .withdrawn id reason ∈ state.log
  /-- A job is queued, has a task, or has ended once. -/
  counted : ∀ id, state.queued.count id + state.tasks.count id + (settledIds state.log).count id =
    if id < state.nextId then 1 else 0
  /-- Nothing is published of a job behind its end. -/
  final : ∀ before id event after, state.log = before ++ .published id event :: after →
    id ∉ settledIds before
  /-- A key leads to a job of that key that has not ended and that no cancel has flagged;
  only a shutdown flags it. -/
  keys : ∀ key id, state.byKey.lookup key = some id → (id ∈ state.queued ∨ id ∈ state.tasks) ∧
    .flagged id ∉ state.log ∧ ∃ entry, state.jobs.lookup id = some entry ∧ entry.key = key ∧
      entry.event.isTerminal = false ∧ (entry.cancel = true → state.shuttingDown = true)
  positions : ∀ index id, state.queued[index]? = some id → ∃ entry,
    state.jobs.lookup id = some entry ∧ entry.event = .queued (index + 1)
  drained : ∀ reply, .drained reply ∈ state.log → state.running = 0 ∧ state.tasks = []

variable {state : PoolState Work Artifact} {args : PoolArgs}

theorem Sound.passed_over (sound : state.Sound []) {id other : Nat} (less : id < other)
    (isStarted : other ∈ startedIds state.log) : id ∈ startedIds state.log ∨
      ∃ reason, .withdrawn id reason ∈ state.log := by
  have bound := sound.bound other isStarted
  rcases sound.passed id (by omega) with started | queued | later | gone
  · exact .inl started
  · have behind := (List.pairwise_append.mp sound.order).2.2 other isStarted id queued
    omega
  · cases later
  · exact .inr gone

theorem Whole.safe (whole : state.Whole args.atLeastOne) : state.Safe args := by
  have sound := whole.sound
  refine ⟨whole.slots.running, whole.slots.most, whole.slots.alone, sound.order, sound.begun,
    fun _ _ => sound.passed_over, fun id => ?_, sound.final, fun key id isKey => ?_, whole.positioned,
    fun reply member => ?_⟩
  · have counted := sound.counted id
    rw [List.count_nil] at counted
    omega
  · obtain ⟨live, entry, found, sameKey, fresh⟩ := sound.keys key id isKey
    obtain ⟨same, isEntry, isOpen⟩ := sound.live id live
    rw [found] at isEntry
    cases isEntry
    refine ⟨?_, fun member => (sound.flagged id member).2 key isKey, entry, found, sameKey, isOpen,
      fun flagged => ?_⟩
    · rcases live with queued | running | later
      · exact .inl queued
      · exact .inr running
      · cases later
    · rcases fresh with notFlagged | shutting
      · rw [notFlagged] at flagged
        cases flagged
      · exact shutting
  · have none := (whole.draining.drained reply member).2
    exact ⟨by rw [whole.slots.running, none]; rfl, none⟩

end PoolState

theorem run_safe (args : PoolArgs) (events : List (Nat × PoolEvent Work Artifact)) :
    ((poolMachine Work Artifact args).run events).Safe args :=
  (whole_run args events).safe

/-- A submit that comes in behind a shutdown joins the job the shutdown has flagged. -/
theorem flagged_job_keeps_key : ¬∀ (args : PoolArgs) (events : List (Nat × PoolEvent Unit Unit))
    (key : String) (id : Nat), ((poolMachine Unit Unit args).run events).byKey.lookup key = some id →
    ∃ entry, ((poolMachine Unit Unit args).run events).jobs.lookup id = some entry ∧
      entry.cancel = false := by
  intro claimed
  obtain ⟨entry, found, fresh⟩ := claimed ⟨1, 900, 512⟩
    [(0, .submit ⟨"k", .light, ()⟩ none none), (1, .shutdown 0)] "k" 0 (by decide +kernel)
  have flagged : (((poolMachine Unit Unit ⟨1, 900, 512⟩).run
      [(0, .submit ⟨"k", .light, ()⟩ none none), (1, .shutdown 0)]).jobs.lookup 0).map (·.cancel) =
      some true := by decide +kernel
  rw [found] at flagged
  exact absurd (fresh.symm.trans (Option.some.inj flagged)) Bool.false_ne_true

end Panoptikon.Transcode
