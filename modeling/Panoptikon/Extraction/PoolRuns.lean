import Panoptikon.Extraction.Pools

/-!
# The pools never deadlock

Who holds a budget waits for units only, and who holds units waits for nothing but
the predict call. So in every state that is not final a task or the dispatcher can
go on, and what is in flight stays inside the pools, unless a pool cannot be made
or a slice is too long for a 32-bit number of permits.
-/

namespace Panoptikon.Extraction

open Foundation

theorem resolve_batch_positive (settings : List JobSetting) (model : ModelMetadata)
    (batchSize : Option Int) : 1 ≤ resolveBatchSize settings model batchSize :=
  Int.le_max_right _ _

theorem pool_batch_positive (loaderConcurrency : Nat) (intermediateBudgetKib : UInt32)
    (settings : List JobSetting) (model : ModelMetadata) (batchSize : Option Int) :
    1 ≤ (poolSizes loaderConcurrency intermediateBudgetKib settings model batchSize).batchSize := by
  have positive := resolve_batch_positive settings model batchSize
  simp only [poolSizes]
  omega

theorem chunk_lengths_bounds {size units length : Nat} (positive : 1 ≤ size)
    (member : length ∈ chunkLengths size units) : 1 ≤ length ∧ length ≤ size ∧ length ≤ units := by
  rcases List.mem_append.mp member with whole | part
  · obtain ⟨some, rfl⟩ := List.mem_replicate.mp whole
    have fits : length * (units / length) ≤ units := Nat.mul_div_le units length
    have atLeast : length * 1 ≤ length * (units / length) :=
      Nat.mul_le_mul_left length (Nat.one_le_iff_ne_zero.mpr some)
    omega
  · split at part
    · cases part
    · rw [List.mem_singleton.mp part]
      have below := Nat.mod_lt units (by omega : 0 < size)
      have fits := Nat.mod_le units size
      omega

namespace Phase

/-- The slices that are still to be predicted, the current one first. -/
def requests : Phase → List Nat
  | waitingBudget _ requests => requests
  | ready _ requests => requests
  | waitingUnits _ _ length rest => length :: rest
  | inFlight _ _ length rest => length :: rest
  | _ => []

/-- A permit for every unit of the current slice. -/
def Exact : Phase → Prop
  | waitingUnits _ want length _ => want = length
  | inFlight _ permits length _ => permits = length
  | _ => True

end Phase

/-- A slice that a 32-bit number of permits from the pool is enough for. -/
def Servable (sizes : PoolSizes) (length : Nat) : Prop :=
  1 ≤ length ∧ length ≤ sizes.batchSize ∧ length < 2 ^ 32

structure Proper (sizes : PoolSizes) (phase : Phase) : Prop where
  servable : ∀ length ∈ phase.requests, Servable sizes length
  exact_ : phase.Exact

/-- Only the dispatcher waits for a loader permit. -/
def LoaderQueue (state : JobState) : Prop :=
  if state.dispatcher = .waitingLoader then ∃ place, state.loaderSlots.queue = [(place, 1)]
  else state.loaderSlots.queue = []

structure Sound (sizes : PoolSizes) (state : JobState) : Prop where
  loader : state.loaderSlots.free + tally Phase.loaderHeld state.tasks = sizes.loaderPermits
  loaderQueue : LoaderQueue state
  budget : Balanced Phase.budgetHeld Phase.budgetWait sizes.budgetCapacity state.budgetSlots state.tasks
  units : Balanced Phase.unitPermits Phase.unitWait sizes.batchSize state.unitSlots state.tasks
  proper : ∀ phase ∈ state.tasks, Proper sizes phase

/-- The inputs of the item that is loaded. -/
def Event.units : Event → Nat
  | .loaded _ _ units => units
  | _ => 0

/-- No slice of the loaded item is cut to fewer permits than it has units. -/
def Event.NotTruncated (sizes : PoolSizes) (event : Event) : Prop :=
  min event.units sizes.batchSize < 2 ^ 32

instance (sizes : PoolSizes) (event : Event) : Decidable (event.NotTruncated sizes) :=
  inferInstanceAs (Decidable (_ < _))

section

variable {sizes : PoolSizes} {state next : JobState}

variable {task : Nat}

variable {phase : Phase}

theorem Sound.at_task (sound : Sound sizes state)
    (isPhase : state.tasks[task]? = some phase) : Proper sizes phase :=
  sound.proper phase (List.mem_of_getElem? isPhase)

theorem Sound.set_task (sound : Sound sizes state) {old new : Phase}
    (isOld : state.tasks[task]? = some old) (tasks : next.tasks = state.tasks.set task new)
    (dispatcher : next.dispatcher = state.dispatcher)
    (loaderQueue : next.loaderSlots.queue = state.loaderSlots.queue)
    (loaderFree : next.loaderSlots.free + new.loaderHeld = state.loaderSlots.free + old.loaderHeld)
    (budget : Balanced Phase.budgetHeld Phase.budgetWait sizes.budgetCapacity next.budgetSlots
      (state.tasks.set task new))
    (units : Balanced Phase.unitPermits Phase.unitWait sizes.batchSize next.unitSlots
      (state.tasks.set task new))
    (proper : Proper sizes new) : Sound sizes next := by
  refine ⟨?_, ?_, tasks ▸ budget, tasks ▸ units, ?_⟩
  · have total := sound.loader
    have changed := @tally_set _ Phase.loaderHeld _ _ _ new isOld
    rw [tasks]
    omega
  · unfold LoaderQueue
    rw [dispatcher, loaderQueue]
    exact sound.loaderQueue
  · rw [tasks]
    intro phase member
    rcases List.mem_or_eq_of_mem_set member with before | rfl
    · exact sound.proper phase before
    · exact proper

theorem sound_start (started : startJob sizes = some state) : Sound sizes state := by
  simp only [startJob, Option.bind_eq_bind, Option.bind_eq_some_iff] at started
  obtain ⟨loaderSlots, madeLoader, budgetSlots, madeBudget, unitSlots, madeUnits, isState⟩ := started
  rw [Semaphore.create_some madeLoader, Semaphore.create_some madeBudget,
    Semaphore.create_some madeUnits] at isState
  cases isState
  exact ⟨rfl, rfl, balanced_create _, balanced_create _, fun phase absent =>
    absurd absent List.not_mem_nil⟩

theorem proper_idle (noRequests : phase.requests = []) (isExact : phase.Exact) : Proper sizes phase :=
  ⟨fun length member => by rw [noRequests] at member; exact absurd member List.not_mem_nil, isExact⟩

section

variable (sound : Sound sizes state)

include sound

theorem sound_spawn {loaderSlots : Semaphore}
    (queue : loaderSlots.queue = []) (free : loaderSlots.free + 1 = state.loaderSlots.free) :
    Sound sizes (state.spawn loaderSlots) := by
  refine ⟨?_, queue, sound.budget.append rfl rfl rfl, sound.units.append rfl rfl rfl, ?_⟩
  · have total := sound.loader
    simp only [JobState.spawn, tally_append, tally_cons, tally_nil, Phase.loaderHeld]
    omega
  · intro phase member
    rcases List.mem_append.mp member with before | last
    · exact sound.proper phase before
    · rw [List.mem_singleton.mp last]
      exact proper_idle rfl trivial

theorem sound_next_item (reading : state.dispatcher = .reading) : Sound sizes state.nextItem := by
  have queue : state.loaderSlots.queue = [] := by
    have isQueue := sound.loaderQueue
    rwa [LoaderQueue, reading, if_neg (by decide)] at isQueue
  unfold JobState.nextItem
  split
  · rename_i granted
    have fits : 1 ≤ state.loaderSlots.free := by
      simpa [Semaphore.grants, queue] using granted
    exact sound_spawn sound queue (by simp only [Semaphore.take]; omega)
  · refine ⟨sound.loader, ?_, sound.budget, sound.units, sound.proper⟩
    exact ⟨state.tasks.length, by simp [Semaphore.enqueue, queue]⟩

theorem sound_admit_loader (waiting : state.dispatcher = .waitingLoader) {task want : Nat} {loaderSlots : Semaphore}
    (admitted : state.loaderSlots.admitFirst = some (task, want, loaderSlots)) :
    Sound sizes (state.spawn loaderSlots) := by
  have isQueue := sound.loaderQueue
  rw [LoaderQueue, if_pos waiting] at isQueue
  obtain ⟨place, only⟩ := isQueue
  obtain ⟨queue, fits, free⟩ := admit_first_spec admitted
  obtain ⟨first, rest⟩ := List.cons.inj (only.symm.trans queue)
  obtain rfl : 1 = want := congrArg Prod.snd first
  exact sound_spawn sound rest.symm (by omega)

theorem sound_dispatcher {dispatcher : Dispatcher}
    (before : state.dispatcher ≠ .waitingLoader) (after : dispatcher ≠ .waitingLoader) :
    Sound sizes { state with dispatcher := dispatcher } := by
  refine ⟨sound.loader, ?_, sound.budget, sound.units, sound.proper⟩
  have isQueue := sound.loaderQueue
  rw [LoaderQueue, if_neg before] at isQueue
  rw [LoaderQueue, if_neg after]
  exact isQueue

theorem sound_cancelled :
    Sound sizes { state with
      loaderSlots := { state.loaderSlots with queue := [] }, dispatcher := .aborted } :=
  ⟨sound.loader, rfl, sound.budget, sound.units, sound.proper⟩

theorem sound_failed_load
    (isLoading : state.tasks[task]? = some .loading) : Sound sizes (state.setTask task (.finalizing 1 0)) :=
  sound.set_task isLoading rfl rfl rfl rfl (sound.budget.set_running isLoading rfl rfl rfl rfl)
    (sound.units.set_running isLoading rfl rfl rfl rfl) (proper_idle rfl trivial)

end

theorem servable_chunks {units : Nat} (batch : 1 ≤ sizes.batchSize) (fits : min units sizes.batchSize < 2 ^ 32) :
    ∀ length ∈ chunkLengths sizes.unitCapacity units, Servable sizes length := by
  intro length member
  have capacity : sizes.unitCapacity = sizes.batchSize := Nat.max_eq_left batch
  rw [capacity] at member
  obtain ⟨positive, inBatch, inItem⟩ := chunk_lengths_bounds batch member
  exact ⟨positive, inBatch, by omega⟩

section

variable (sound : Sound sizes state)

include sound

theorem sound_loaded (batch : 1 ≤ sizes.batchSize) {task bytes units : Nat}
    (isLoading : state.tasks[task]? = some .loading) (fits : min units sizes.batchSize < 2 ^ 32) :
    Sound sizes (state.loaded sizes task bytes units) := by
  have servable := servable_chunks batch fits
  unfold JobState.loaded
  simp only
  split
  · exact sound_failed_load sound isLoading
  · split
    · exact sound.set_task isLoading rfl rfl rfl rfl (sound.budget.set_running isLoading rfl rfl rfl rfl)
        (sound.units.set_running isLoading rfl rfl rfl rfl) ⟨servable, trivial⟩
    · split
      · rename_i granted
        have free : min (inputMemoryKib bytes) sizes.budgetCapacity ≤ state.budgetSlots.free := by
          simp only [Semaphore.grants, Bool.or_eq_true, Bool.and_eq_true, decide_eq_true_eq] at granted
          omega
        refine sound.set_task isLoading rfl rfl rfl rfl ?_
          (sound.units.set_running isLoading rfl rfl rfl rfl) ⟨servable, trivial⟩
        refine sound.budget.set_running isLoading rfl rfl rfl ?_
        simp only [Semaphore.take, Phase.budgetHeld]
        omega
      · exact sound.set_task isLoading rfl rfl rfl rfl
          (sound.budget.set_enqueued isLoading rfl rfl (Nat.min_le_right _ _) rfl)
          (sound.units.set_running isLoading rfl rfl rfl rfl) ⟨servable, trivial⟩

theorem sound_admit_budget {task want amount : Nat} {requests : List Nat}
    {budgetSlots : Semaphore} (admitted : state.budgetSlots.admitFirst = some (task, want, budgetSlots))
    (isWaiting : state.tasks[task]? = some (.waitingBudget amount requests)) :
    Sound sizes { state.setTask task (.ready want requests) with
      loaderSlots := state.loaderSlots.release 1, budgetSlots := budgetSlots } :=
  sound.set_task isWaiting rfl rfl rfl rfl
    (sound.budget.set_admitted admitted isWaiting rfl (Nat.zero_add want).symm)
    (sound.units.set_running isWaiting rfl rfl rfl rfl) ⟨(sound.at_task isWaiting).servable, trivial⟩

theorem sound_request {task held length : Nat} {rest : List Nat}
    (isReady : state.tasks[task]? = some (.ready held (length :: rest))) :
    Sound sizes (state.request task held length rest) := by
  have servable := (sound.at_task isReady).servable
  obtain ⟨positive, inBatch, small⟩ := servable length List.mem_cons_self
  have want : truncateU32 length = length := Nat.mod_eq_of_lt small
  unfold JobState.request
  simp only [want]
  split
  · rename_i granted
    have free : length ≤ state.unitSlots.free := by
      simp only [Semaphore.grants, Bool.or_eq_true, Bool.and_eq_true, decide_eq_true_eq] at granted
      omega
    refine sound.set_task isReady rfl rfl rfl rfl (sound.budget.set_running isReady rfl rfl rfl rfl) ?_
      ⟨servable, rfl⟩
    refine sound.units.set_running isReady rfl rfl rfl ?_
    simp only [Semaphore.take, Phase.unitPermits]
    omega
  · exact sound.set_task isReady rfl rfl rfl rfl (sound.budget.set_running isReady rfl rfl rfl rfl)
      (sound.units.set_enqueued isReady rfl rfl inBatch rfl) ⟨servable, rfl⟩

theorem sound_requests_end {task held : Nat} (isReady : state.tasks[task]? = some (.ready held [])) :
    Sound sizes (state.setTask task (.finalizing 0 held)) :=
  sound.set_task isReady rfl rfl rfl rfl (sound.budget.set_running isReady rfl rfl rfl rfl)
    (sound.units.set_running isReady rfl rfl rfl rfl) (proper_idle rfl trivial)

theorem sound_admit_units {task want held amount length : Nat} {rest : List Nat} {unitSlots : Semaphore}
    (admitted : state.unitSlots.admitFirst = some (task, want, unitSlots))
    (isWaiting : state.tasks[task]? = some (.waitingUnits held amount length rest)) :
    Sound sizes { state.setTask task (.inFlight held want length rest) with unitSlots := unitSlots } := by
  obtain ⟨old, isOld, waits⟩ := sound.units.admitted_waits admitted
  obtain rfl : .waitingUnits held amount length rest = old := Option.some.inj (isWaiting.symm.trans isOld)
  obtain rfl : amount = want := Option.some.inj waits
  have proper := sound.at_task isWaiting
  exact sound.set_task isWaiting rfl rfl rfl rfl (sound.budget.set_running isWaiting rfl rfl rfl rfl)
    (sound.units.set_admitted admitted isWaiting rfl (Nat.zero_add amount).symm)
    ⟨proper.servable, proper.exact_⟩

end

theorem after_reply_spec {held length : Nat} {rest : List Nat} (batch : 1 ≤ sizes.batchSize)
    (servable : ∀ request ∈ rest, Servable sizes request) (reply : Reply) :
    let phase := JobState.afterReply held length rest reply
    phase.loaderHeld = 0 ∧ phase.budgetHeld = held ∧ phase.unitPermits = 0 ∧ phase.budgetWait = none ∧
      phase.unitWait = none ∧ Proper sizes phase := by
  have idle : Proper sizes (.finalizing 0 held) := proper_idle rfl trivial
  cases reply with
  | answered => exact ⟨rfl, rfl, rfl, rfl, rfl, servable, trivial⟩
  | refused => exact ⟨rfl, rfl, rfl, rfl, rfl, idle⟩
  | failed =>
    simp only [JobState.afterReply]
    split
    · refine ⟨rfl, rfl, rfl, rfl, rfl, fun request member => ?_, trivial⟩
      rcases List.mem_append.mp member with single | later
      · rw [(List.mem_replicate.mp single).2]
        exact ⟨Nat.le_refl 1, batch, by decide⟩
      · exact servable request later
    · exact ⟨rfl, rfl, rfl, rfl, rfl, idle⟩

theorem sound_replied (sound : Sound sizes state) (batch : 1 ≤ sizes.batchSize)
    {task held permits length : Nat} {rest : List Nat}
    (isFlying : state.tasks[task]? = some (.inFlight held permits length rest)) (reply : Reply) :
    Sound sizes (state.replied task held permits length rest reply) := by
  have servable := (sound.at_task isFlying).servable
  obtain ⟨loader, budget, units, noBudgetWait, noUnitWait, proper⟩ := @after_reply_spec sizes held length
    rest batch (fun request member => servable request (List.mem_cons_of_mem _ member)) reply
  refine sound.set_task isFlying rfl rfl rfl ?_ ?_ ?_ proper
  · rw [loader]
    rfl
  · exact sound.budget.set_running isFlying rfl noBudgetWait rfl (by rw [budget]; rfl)
  · exact sound.units.set_running isFlying rfl noUnitWait rfl (by rw [units]; rfl)

theorem sound_finalized (sound : Sound sizes state) {task loader held : Nat}
    (isFinalizing : state.tasks[task]? = some (.finalizing loader held)) :
    Sound sizes (state.finalized task loader held) :=
  sound.set_task isFinalizing rfl rfl rfl rfl (sound.budget.set_running isFinalizing rfl rfl rfl rfl)
    (sound.units.set_running isFinalizing rfl rfl rfl rfl) (proper_idle rfl trivial)

theorem sound_dropped (sound : Sound sizes state)
    (isPhase : state.tasks[task]? = some phase) : Sound sizes (state.dropTask task phase) :=
  sound.set_task isPhase rfl rfl rfl rfl (sound.budget.set_dropped isPhase rfl rfl)
    (sound.units.set_dropped isPhase rfl rfl) (proper_idle rfl trivial)

theorem sound_step (batch : 1 ≤ sizes.batchSize) (sound : Sound sizes state) {event : Event}
    (notTruncated : event.NotTruncated sizes) (stepped : state.step? sizes event = some next) :
    Sound sizes next := by
  cases event with
  | nextItem =>
    simp only [JobState.step?] at stepped
    split at stepped <;> cases stepped
    exact sound_next_item sound ‹_›
  | endOfItems =>
    simp only [JobState.step?] at stepped
    split at stepped <;> cases stepped
    rename_i reading
    exact sound_dispatcher sound (by rw [reading]; decide) (by decide)
  | admitLoader =>
    simp only [JobState.step?] at stepped
    split at stepped
    · obtain ⟨⟨task, want, loaderSlots⟩, admitted, rfl⟩ := Option.map_eq_some_iff.mp stepped
      exact sound_admit_loader sound ‹_› admitted
    · cases stepped
  | loaded task bytes units =>
    simp only [JobState.step?] at stepped
    split at stepped <;> cases stepped
    exact sound_loaded sound batch ‹_› notTruncated
  | loadFailed task =>
    simp only [JobState.step?] at stepped
    split at stepped <;> cases stepped
    exact sound_failed_load sound ‹_›
  | admitBudget =>
    simp only [JobState.step?] at stepped
    split at stepped
    · cases stepped
    · split at stepped <;> cases stepped
      exact sound_admit_budget sound ‹_› ‹_›
  | request task =>
    simp only [JobState.step?] at stepped
    split at stepped <;> cases stepped
    · exact sound_requests_end sound ‹_›
    · exact sound_request sound ‹_›
  | admitUnits =>
    simp only [JobState.step?] at stepped
    split at stepped
    · cases stepped
    · split at stepped <;> cases stepped
      exact sound_admit_units sound ‹_› ‹_›
  | replied task reply =>
    simp only [JobState.step?] at stepped
    split at stepped <;> cases stepped
    exact sound_replied sound batch ‹_› reply
  | finalized task =>
    simp only [JobState.step?] at stepped
    split at stepped <;> cases stepped
    exact sound_finalized sound ‹_›
  | joined =>
    simp only [JobState.step?] at stepped
    split at stepped <;> cases stepped
    rename_i joining
    exact sound_dispatcher sound (by rw [joining.1]; decide) (by decide)
  | cancelled =>
    simp only [JobState.step?] at stepped
    split at stepped <;> cases stepped
    exact sound_cancelled sound
  | dropped task =>
    simp only [JobState.step?] at stepped
    split at stepped <;> cases stepped
    exact sound_dropped sound ‹_›

/-- The job is over. -/
def JobState.Final (state : JobState) : Prop :=
  (state.dispatcher = .ended ∨ state.dispatcher = .aborted) ∧ ∀ phase ∈ state.tasks, phase = .done

/-- A step of the dispatcher or of a task, not one that is done to it. -/
def Event.IsOwn : Event → Prop
  | .cancelled | .dropped _ => False
  | _ => True

/-- A task that waits for nothing but its own work. -/
def Phase.Moves : Phase → Prop
  | .loading | .ready _ _ | .inFlight _ _ _ _ | .finalizing _ _ => True
  | _ => False

/-- Some event of a task or of the dispatcher can happen. -/
def CanStep (sizes : PoolSizes) (state : JobState) : Prop :=
  ∃ event : Event, event.IsOwn ∧ (state.step? sizes event).isSome = true

theorem moves_can_step (isPhase : state.tasks[task]? = some phase) (moves : phase.Moves) : CanStep sizes state := by
  cases phase with
  | loading => exact ⟨.loadFailed task, trivial, by simp only [JobState.step?, isPhase, Option.isSome_some]⟩
  | waitingBudget want requests => exact moves.elim
  | ready held requests =>
    cases requests with
    | nil => exact ⟨.request task, trivial, by simp only [JobState.step?, isPhase, Option.isSome_some]⟩
    | cons length rest =>
      exact ⟨.request task, trivial, by simp only [JobState.step?, isPhase, Option.isSome_some]⟩
  | waitingUnits held want length rest => exact moves.elim
  | inFlight held permits length rest =>
    exact ⟨.replied task .answered, trivial, by simp only [JobState.step?, isPhase, Option.isSome_some]⟩
  | finalizing loader held =>
    exact ⟨.finalized task, trivial, by simp only [JobState.step?, isPhase, Option.isSome_some]⟩
  | done => exact moves.elim

section

variable (sound : Sound sizes state)

include sound

theorem waiting_units_can_step
    (still : ∀ phase ∈ state.tasks, ¬phase.Moves) {task held want length : Nat} {rest : List Nat}
    (isWaiting : state.tasks[task]? = some (.waitingUnits held want length rest)) : CanStep sizes state := by
  have idle : tally Phase.unitPermits state.tasks = 0 := by
    refine tally_zero fun phase member => ?_
    cases phase with
    | inFlight held permits length rest => exact absurd trivial (still _ member)
    | _ => rfl
  obtain ⟨first, amount, unitSlots, admitted⟩ := sound.units.admits idle isWaiting rfl
  obtain ⟨old, isOld, waits⟩ := sound.units.admitted_waits admitted
  cases old with
  | waitingUnits held want length rest =>
    exact ⟨.admitUnits, trivial, by simp only [JobState.step?, admitted, isOld, Option.isSome_some]⟩
  | _ => cases waits

theorem waiting_budget_can_step (still : ∀ phase ∈ state.tasks, ¬phase.Moves)
    (noUnits : ∀ phase ∈ state.tasks, phase.unitWait = none) {task want : Nat} {requests : List Nat}
    (isWaiting : state.tasks[task]? = some (.waitingBudget want requests)) : CanStep sizes state := by
  have idle : tally Phase.budgetHeld state.tasks = 0 := by
    refine tally_zero fun phase member => ?_
    cases phase with
    | waitingBudget | loading | done => rfl
    | waitingUnits held want length rest => cases noUnits _ member
    | _ => exact absurd trivial (still _ member)
  obtain ⟨first, amount, budgetSlots, admitted⟩ := sound.budget.admits idle isWaiting rfl
  obtain ⟨old, isOld, waits⟩ := sound.budget.admitted_waits admitted
  cases old with
  | waitingBudget want requests =>
    exact ⟨.admitBudget, trivial, by simp only [JobState.step?, admitted, isOld, Option.isSome_some]⟩
  | _ => cases waits

theorem dispatcher_can_step (allDone : ∀ phase ∈ state.tasks, phase = .done)
    (notFinal : ¬state.Final) : CanStep sizes state := by
  cases isDispatcher : state.dispatcher with
  | reading =>
    exact ⟨.endOfItems, trivial, by simp only [JobState.step?, isDispatcher, if_true, Option.isSome_some]⟩
  | joining =>
    have allOver := And.intro isDispatcher allDone
    exact ⟨.joined, trivial, by simp only [JobState.step?, if_pos allOver, Option.isSome_some]⟩
  | ended => exact absurd ⟨Or.inl isDispatcher, allDone⟩ notFinal
  | aborted => exact absurd ⟨Or.inr isDispatcher, allDone⟩ notFinal
  | waitingLoader =>
    have isQueue := sound.loaderQueue
    rw [LoaderQueue, if_pos isDispatcher] at isQueue
    obtain ⟨place, only⟩ := isQueue
    have idle : tally Phase.loaderHeld state.tasks = 0 :=
      tally_zero fun phase member => by rw [allDone phase member]; rfl
    have total := sound.loader
    have permits : 1 ≤ sizes.loaderPermits := Nat.le_max_right _ _
    have fits : 1 ≤ state.loaderSlots.free := by omega
    refine ⟨.admitLoader, trivial, ?_⟩
    simp only [JobState.step?, isDispatcher, if_true, Semaphore.admitFirst, only, if_pos fits, Option.map_some,
      Option.isSome_some]

/-- Units are asked for under a budget and a budget under a loader permit, never the other way. -/
theorem sound_can_step (notFinal : ¬state.Final) : CanStep sizes state := by
  by_cases moving : ∃ phase ∈ state.tasks, phase.Moves
  · obtain ⟨phase, member, moves⟩ := moving
    obtain ⟨task, inside, isPhase⟩ := List.getElem_of_mem member
    exact moves_can_step (List.getElem?_eq_some_iff.mpr ⟨inside, isPhase⟩) moves
  · have still : ∀ phase ∈ state.tasks, ¬phase.Moves := fun phase member moves =>
      moving ⟨phase, member, moves⟩
    by_cases unitWaits : ∃ phase ∈ state.tasks, phase.unitWait ≠ none
    · obtain ⟨phase, member, waits⟩ := unitWaits
      obtain ⟨task, inside, isPhase⟩ := List.getElem_of_mem member
      cases phase with
      | waitingUnits held want length rest =>
        exact waiting_units_can_step sound still (List.getElem?_eq_some_iff.mpr ⟨inside, isPhase⟩)
      | _ => exact absurd rfl waits
    · have noUnits : ∀ phase ∈ state.tasks, phase.unitWait = none := fun phase member =>
        of_not_not fun waits => unitWaits ⟨phase, member, waits⟩
      by_cases budgetWaits : ∃ phase ∈ state.tasks, phase.budgetWait ≠ none
      · obtain ⟨phase, member, waits⟩ := budgetWaits
        obtain ⟨task, inside, isPhase⟩ := List.getElem_of_mem member
        cases phase with
        | waitingBudget want requests =>
          exact waiting_budget_can_step sound still noUnits
            (List.getElem?_eq_some_iff.mpr ⟨inside, isPhase⟩)
        | _ => exact absurd rfl waits
      · refine dispatcher_can_step sound (fun phase member => ?_) notFinal
        cases phase with
        | done => rfl
        | waitingBudget want requests => exact absurd ⟨_, member, nofun⟩ budgetWaits
        | waitingUnits held want length rest => cases noUnits _ member
        | _ => exact absurd trivial (still _ member)

end

end

/-- The job has not panicked, its tasks hold no more than there is, and someone can go on. -/
def WithinPools (sizes : PoolSizes) (job : Option JobState) : Prop :=
  ∃ state, job = some state ∧ tally Phase.budgetHeld state.tasks ≤ sizes.budgetCapacity ∧
    tally Phase.unitsInFlight state.tasks ≤ sizes.batchSize ∧ (¬state.Final → CanStep sizes state)

variable {sizes : PoolSizes}

theorem units_are_permits {tasks : List Phase} (proper : ∀ phase ∈ tasks, Proper sizes phase) :
    tally Phase.unitsInFlight tasks = tally Phase.unitPermits tasks := by
  have same : tasks.map Phase.unitsInFlight = tasks.map Phase.unitPermits := by
    refine List.map_congr_left fun phase member => ?_
    have isExact := (proper phase member).exact_
    cases phase with
    | inFlight held permits length rest => exact isExact.symm
    | _ => rfl
  exact congrArg List.sum same

theorem sound_within {state : JobState} (sound : Sound sizes state) : WithinPools sizes (some state) :=
  ⟨state, rfl, sound.budget.held_le, units_are_permits sound.proper ▸ sound.units.held_le,
    sound_can_step sound⟩

/-- The pools that can be made. -/
def Creatable (sizes : PoolSizes) : Prop :=
  sizes.loaderPermits ≤ maxPermits ∧ sizes.batchSize ≤ maxPermits

theorem start_job_some (creatable : Creatable sizes) : ∃ state, startJob sizes = some state := by
  have budget : sizes.budgetCapacity ≤ maxPermits := by
    have small := sizes.intermediateBudgetKib.toNat_lt
    simp only [PoolSizes.budgetCapacity, maxPermits]
    omega
  refine ⟨⟨⟨sizes.loaderPermits, []⟩, ⟨sizes.budgetCapacity, []⟩, ⟨sizes.batchSize, []⟩,
    .reading, []⟩, ?_⟩
  simp only [startJob, Semaphore.create, if_pos creatable.1, if_pos creatable.2, if_pos budget]
  rfl

/-- In every run of a job whose pools can be made and whose slices are not cut, everything stays
within the pools and someone can go on. -/
theorem pools_run_within (loaderConcurrency : Nat) (intermediateBudgetKib : UInt32)
    (settings : List JobSetting) (model : ModelMetadata) (batchSize : Option Int)
    (creatable : Creatable (poolSizes loaderConcurrency intermediateBudgetKib settings model batchSize))
    (events : List Event)
    (notTruncated : ∀ event ∈ events,
      event.NotTruncated (poolSizes loaderConcurrency intermediateBudgetKib settings model batchSize)) :
    WithinPools (poolSizes loaderConcurrency intermediateBudgetKib settings model batchSize)
      ((machine (poolSizes loaderConcurrency intermediateBudgetKib settings model batchSize)).run
        events) := by
  have batch := pool_batch_positive loaderConcurrency intermediateBudgetKib settings model batchSize
  generalize poolSizes loaderConcurrency intermediateBudgetKib settings model batchSize = sizes at *
  have invariant := (machine sizes).run_invariant (fun job => ∃ state, job = some state ∧ Sound sizes state)
    (fun _ event => event.NotTruncated sizes) ?_ ?_ events (Machine.admitted_run_of_forall _ notTruncated)
  · obtain ⟨state, isState, sound⟩ := invariant
    rw [isState]
    exact sound_within sound
  · obtain ⟨state, started⟩ := start_job_some creatable
    exact ⟨state, started, sound_start started⟩
  · rintro job event admitted ⟨state, rfl, sound⟩
    refine ⟨(state.step? sizes event).getD state, rfl, ?_⟩
    cases stepped : state.step? sizes event with
    | none => exact sound
    | some next => exact sound_step batch sound admitted stepped

/-- A model without settings and a batch size of its own. -/
def plainModel : ModelMetadata := ⟨"clip", "clip/plain", 8⟩

/-- Two items ask for more budget than there is, and the second waits. -/
theorem two_items_within :
    WithinPools (poolSizes 2 4 [] plainModel (some 3))
      ((machine (poolSizes 2 4 [] plainModel (some 3))).run
        [.nextItem, .nextItem, .loaded 0 9000 7, .loaded 1 500 2, .request 0, .replied 0 .failed]) :=
  pools_run_within 2 4 [] plainModel (some 3) ⟨by decide, by decide⟩ _ (by decide)

/-- The unit pool of a large batch cannot be made; and two slices of 2 ^ 32 units take no permits, so
that twice the batch size is in flight. -/
theorem large_batches_escape :
    (¬WithinPools (poolSizes 4 1024 [] plainModel (some (2 ^ 63 - 1)))
      ((machine (poolSizes 4 1024 [] plainModel (some (2 ^ 63 - 1)))).run [])) ∧
    ¬WithinPools (poolSizes 4 1024 [] plainModel (some (2 ^ 32)))
      ((machine (poolSizes 4 1024 [] plainModel (some (2 ^ 32)))).run
        [.nextItem, .nextItem, .loaded 0 0 (2 ^ 32), .loaded 1 0 (2 ^ 32), .request 0, .request 1]) := by
  constructor
  · rintro ⟨state, isState, -⟩
    have panicked : (machine (poolSizes 4 1024 [] plainModel (some (2 ^ 63 - 1)))).run [] = none := by decide
    rw [panicked] at isState
    cases isState
  · rintro ⟨state, isState, -, units, -⟩
    have inFlight : ((machine (poolSizes 4 1024 [] plainModel (some (2 ^ 32)))).run
        [.nextItem, .nextItem, .loaded 0 0 (2 ^ 32), .loaded 1 0 (2 ^ 32), .request 0,
          .request 1]).map (fun state => tally Phase.unitsInFlight state.tasks) = some (2 ^ 33) := by
      decide +kernel
    rw [isState] at inFlight
    have count : tally Phase.unitsInFlight state.tasks = 2 ^ 33 := Option.some.inj inFlight
    have batch : (poolSizes 4 1024 [] plainModel (some (2 ^ 32))).batchSize = 2 ^ 32 := by decide
    rw [count, batch] at units
    omega

end Panoptikon.Extraction
