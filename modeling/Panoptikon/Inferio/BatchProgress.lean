import Panoptikon.Inferio.Batching

/-!
# Every request gets its reply

Each event of the dispatcher and its windows uses up work, so that they come to
rest unless a caller asks for more; and at rest every request has its reply.
-/

namespace Panoptikon.Inferio.Dispatch

open Foundation Panoptikon.Inferio

variable {Input Slot : Type} {ctx : DispatcherContext Input Slot}

/-- The inputs of the requests, and as much again for each. -/
def load (each : Nat) (requests : List (DispatchRequest Input)) : Nat :=
  (requests.map fun request => request.inputs.length + each).sum

variable (each : Nat)

@[simp] theorem load_nil : load each ([] : List (DispatchRequest Input)) = 0 := rfl

@[simp] theorem load_cons (request : DispatchRequest Input)
    (rest : List (DispatchRequest Input)) :
    load each (request :: rest) = request.inputs.length + each + load each rest := by
  rw [load, List.map_cons, List.sum_cons]
  rfl

@[simp] theorem load_append (first last : List (DispatchRequest Input)) :
    load each (first ++ last) = load each first + load each last := by
  rw [load, List.map_append, List.sum_append]
  rfl

theorem load_succ (requests : List (DispatchRequest Input)) :
    load (each + 1) requests = load each requests + requests.length := by
  induction requests with
  | nil => rfl
  | cons request rest ih =>
    rw [load_cons, load_cons, ih, List.length_cons]
    omega

def Work.weight : Work Input Slot → Nat
  | .merged window => load 3 window + 2
  | .fallback request _ remaining _ => load 2 (request :: remaining.map Prod.fst) + 1
  | .single request => request.inputs.length + 3
  | .split _ _ _ rest => rest.length + 3

def Status.weight : Status Input Slot → Nat
  | .calling work => work.weight
  | .finished _ | .panicked => 1

def Phase.weight : Phase → Nat
  | .serving => 3
  | .dying _ | .draining => 2
  | .aborting => 1

def DispatchMsg.weight : DispatchMsg Input → Nat
  | .predict request => request.inputs.length + 5
  | .shutdown => 1

def mailboxWeight (mailbox : List (DispatchMsg Input)) : Nat :=
  (mailbox.map DispatchMsg.weight).sum

@[simp] theorem mailbox_weight_predict (request : DispatchRequest Input)
    (rest : List (DispatchMsg Input)) :
    mailboxWeight (.predict request :: rest) = request.inputs.length + 5 + mailboxWeight rest :=
  List.sum_cons

@[simp] theorem mailbox_weight_shutdown (rest : List (DispatchMsg Input)) :
    mailboxWeight (.shutdown :: rest) = 1 + mailboxWeight rest := List.sum_cons

def flightWeight (inFlight : List (InFlight Input Slot)) : Nat :=
  (inFlight.map fun window => window.status.weight).sum

@[simp] theorem flight_weight_append (first last : List (InFlight Input Slot)) :
    flightWeight (first ++ last) = flightWeight first + flightWeight last := by
  rw [flightWeight, List.map_append, List.sum_append]
  rfl

@[simp] theorem flight_weight_singleton (window : InFlight Input Slot) :
    flightWeight [window] = window.status.weight := List.sum_singleton

theorem window_take_loop_ge (byteBudget : Nat) (requests : List (Nat × Nat × Option Nat))
    (taken units bytes memberCap : Nat) :
    taken ≤ windowTakeLoop byteBudget requests taken units bytes memberCap := by
  induction requests generalizing taken units bytes memberCap with
  | nil => exact Nat.le_refl _
  | cons request rest ih =>
    obtain ⟨count, size, explicit⟩ := request
    unfold windowTakeLoop
    dsimp only
    split
    · exact (Nat.le_succ taken).trans (ih ..)
    · exact Nat.le_refl _

theorem window_take_count_pos {requests : List (Nat × Nat × Option Nat)} (some : requests ≠ [])
    (cap byteBudget : Nat) : 0 < windowTakeCount requests cap byteBudget := by
  cases requests with
  | nil => exact (some rfl).elim
  | cons request rest =>
    obtain ⟨count, size, explicit⟩ := request
    unfold windowTakeCount windowTakeLoop
    dsimp only
    rw [if_pos (.inl rfl)]
    exact window_take_loop_ge byteBudget rest (0 + 1) _ _ _

theorem sub_batch_len_pos (size : Input → Nat) (inputs : List Input) (cap byteBudget : Nat) :
    0 < subBatchLen size inputs cap byteBudget :=
  Nat.le_max_right _ _

theorem next_part_weight (ctx : DispatcherContext Input Slot) (cap : Nat) (request : DispatchRequest Input)
    (outputs : List Slot)
    (rest : List Input) : (ctx.nextPart cap request outputs rest).status.weight < rest.length + 3 := by
  unfold DispatcherContext.nextPart
  split
  · change 1 < _
    omega
  · rename_i nonempty
    have part := sub_batch_len_pos ctx.estimateInputBytes rest cap frameInputBytesBudget
    have length : 0 < rest.length := List.length_pos_iff.mpr nonempty
    change (rest.drop _).length + 3 < _
    rw [List.length_drop]
    omega

theorem run_batch_weight (cap : Nat) {window : List (DispatchRequest Input)} (some : window ≠ []) :
    (ctx.runBatch cap window).status.weight ≤ load 4 window := by
  match window with
  | [] => exact (some rfl).elim
  | [request] =>
    change (ctx.runSingle cap request).status.weight ≤ _
    have part := next_part_weight ctx cap request [] request.inputs
    unfold DispatcherContext.runSingle
    rw [load_cons, load_nil]
    split
    · change request.inputs.length + 3 ≤ _
      omega
    · omega
  | first :: second :: rest =>
    change load 3 (first :: second :: rest) + 2 ≤ _
    rw [load_succ 3, List.length_cons, List.length_cons]
    omega

theorem next_fallback_weight (remaining : List (DispatchRequest Input × Nat)) (combined : List Input) :
    (DispatcherContext.nextFallback remaining combined : Progress Input Slot).status.weight ≤
      load 2 (remaining.map Prod.fst) + 1 := by
  unfold DispatcherContext.nextFallback
  split
  · change 1 ≤ _
    omega
  · split
    · exact Nat.le_refl _
    · change 1 ≤ _
      omega

theorem resume_weight (ctx : DispatcherContext Input Slot) (cap : Nat) (work : Work Input Slot)
    (outcome : CallOutcome) :
    (ctx.resume cap work outcome).status.weight < work.weight := by
  cases work with
  | merged window =>
    change (ctx.resumeMerged window outcome).status.weight < load 3 window + 2
    cases outcome with
    | slots =>
      unfold DispatcherContext.resumeMerged
      dsimp only
      split
      all_goals
        change 1 < _
        omega
    | workerError why =>
      have next := @next_fallback_weight Input Slot
        (window.map fun request => (request, request.inputs.length))
        (window.flatMap DispatchRequest.inputs)
      have firsts : (window.map fun request => (request, request.inputs.length)).map Prod.fst =
          window := by
        rw [List.map_map]
        exact List.map_id window
      rw [firsts] at next
      have heavier : load 3 window = load 2 window + window.length := load_succ 2 window
      exact Nat.lt_of_le_of_lt next (by omega)
    | fatal why =>
      change 1 < _
      omega
  | fallback request inputs remaining combined =>
    change (ctx.resumeFallback request inputs remaining combined outcome).status.weight <
      load 2 (request :: remaining.map Prod.fst) + 1
    rw [load_cons]
    have next := @next_fallback_weight Input Slot remaining combined
    cases outcome with
    | slots | workerError why => exact Nat.lt_of_le_of_lt next (by omega)
    | fatal why =>
      change 1 < _
      omega
  | single request =>
    change (ctx.resumeSingle request outcome).status.weight < request.inputs.length + 3
    cases outcome with
    | slots | workerError why | fatal why =>
      change 1 < _
      omega
  | split request outputs chunk rest =>
    change (ctx.resumeSplit cap request outputs chunk rest outcome).status.weight <
      rest.length + 3
    cases outcome with
    | slots => exact next_part_weight ctx cap request _ rest
    | workerError why | fatal why =>
      change 1 < _
      omega

namespace Dispatcher

variable {state : Dispatcher Input Slot}

def remaining (state : Dispatcher Input Slot) : Nat :=
  mailboxWeight state.mailbox + load 4 state.queue + flightWeight state.inFlight +
    state.phase.weight

theorem start_window_remaining (some : state.queue ≠ []) (replica : Nat) :
    (state.startWindow ctx replica).remaining ≤ state.remaining := by
  unfold startWindow
  extract_lets cap unitCounts take window progress
  have taken : 0 < take := window_take_count_pos (by simpa [unitCounts] using some) _ _
  have nonempty : window ≠ [] := by
    intro none
    rcases List.take_eq_nil_iff.mp none with zero | empty
    · omega
    · exact some empty
  have weight : progress.status.weight ≤ load 4 window := run_batch_weight cap nonempty
  have parts : load 4 state.queue = load 4 window + load 4 (state.queue.drop take) := by
    rw [← load_append, List.take_append_drop]
  unfold remaining
  rw [flight_weight_append, flight_weight_singleton, parts]
  change mailboxWeight state.mailbox + load 4 (state.queue.drop take) +
    (flightWeight state.inFlight + progress.status.weight) + state.phase.weight ≤ _
  omega

theorem dispatch_remaining (ctx : DispatcherContext Input Slot) (state : Dispatcher Input Slot)
    (free : List Nat) : (dispatch ctx free state).remaining ≤ state.remaining := by
  induction free generalizing state with
  | nil => exact Nat.le_refl _
  | cons replica others ih =>
    unfold Dispatcher.dispatch
    split
    · exact Nat.le_refl _
    · rename_i some
      exact (ih _).trans (start_window_remaining some replica)

theorem end_graceful_remaining (state : Dispatcher Input Slot) :
    state.endGraceful.remaining = flightWeight state.inFlight + 2 := by
  change 0 + 0 + flightWeight state.inFlight + 2 = _
  omega

theorem end_fatal_remaining (state : Dispatcher Input Slot) (why : String) :
    (state.endFatal why).remaining = flightWeight state.inFlight + 1 := by
  change 0 + 0 + flightWeight state.inFlight + 1 = _
  omega

theorem load_enqueue (request : DispatchRequest Input) (queue : List (DispatchRequest Input)) :
    load 4 (queue ++ [request]) = load 4 queue + (request.inputs.length + 4) := by
  rw [load_append, load_cons, load_nil, Nat.add_zero]

theorem drain_mailbox_remaining (ctx : DispatcherContext Input Slot)
    (state : Dispatcher Input Slot) (mailbox : List (DispatchMsg Input)) (serving : state.phase = .serving) :
    (drainMailbox ctx mailbox state).remaining ≤
      mailboxWeight mailbox + load 4 state.queue + flightWeight state.inFlight + 3 := by
  induction mailbox generalizing state with
  | nil =>
    have dispatched := dispatch_remaining ctx { state with mailbox := [] } state.free
    refine dispatched.trans (Nat.le_of_eq ?_)
    unfold remaining
    dsimp only
    rw [serving]
    rfl
  | cons message rest ih =>
    cases message with
    | predict request =>
      have drained := ih { state with queue := state.queue ++ [request] } serving
      dsimp only at drained
      rw [load_enqueue] at drained
      rw [mailbox_weight_predict]
      exact drained.trans (by omega)
    | shutdown =>
      have ends := end_graceful_remaining { state with mailbox := rest }
      dsimp only at ends
      rw [mailbox_weight_shutdown]
      exact ends.le.trans (by omega)

/-- An event of the dispatcher or of a window, and not of a caller. -/
def Enabled (state : Dispatcher Input Slot) : DispatchEvent Input → Prop
  | .send _ _ _ | .sendShutdown | .hangUp => False
  | .receive => state.phase = .serving ∧ (state.mailbox ≠ [] ∨ state.hungUp = true)
  | .join index => (state.phase = .serving ∨ state.phase = .draining) ∧
      ∃ window, state.inFlight[index]? = some window ∧ ∀ work, window.status ≠ .calling work
  | .returns index _ => ∃ window work, state.inFlight[index]? = some window ∧
      window.status = .calling work
  | .reaped => ∃ why, state.phase = .dying why
  | .graceExpires => state.phase = .draining ∧ state.inFlight ≠ []
  | .aborted index => state.phase = .aborting ∧ index < state.inFlight.length

theorem serving_remaining {state : Dispatcher Input Slot} (serving : state.phase = .serving) : state.remaining =
      mailboxWeight state.mailbox + load 4 state.queue + flightWeight state.inFlight + 3 := by
  rw [remaining, serving]
  rfl

theorem receive_remaining (serving : state.phase = .serving)
    (awake : state.mailbox ≠ [] ∨ state.hungUp = true) : (state.receive ctx).remaining < state.remaining := by
  rw [serving_remaining serving]
  unfold Dispatcher.receive
  split
  · rename_i empty
    have hungUp : state.hungUp = true := awake.resolve_left fun some => some empty
    rw [if_pos hungUp, end_graceful_remaining]
    omega
  · rename_i rest isMailbox
    rw [end_graceful_remaining, isMailbox, mailbox_weight_shutdown]
    dsimp only
    omega
  · rename_i request rest isMailbox
    have drained := drain_mailbox_remaining ctx
      { state with queue := state.queue ++ [request] } rest serving
    dsimp only at drained
    rw [load_enqueue] at drained
    have weight : mailboxWeight state.mailbox = _ :=
      (congrArg mailboxWeight isMailbox).trans (mailbox_weight_predict request rest)
    refine Nat.lt_of_le_of_lt drained ?_
    omega

variable {index : Nat} {window : InFlight Input Slot}

theorem erased_weight (found : state.inFlight[index]? = some window) :
    flightWeight (state.inFlight.eraseIdx index) + window.status.weight =
      flightWeight state.inFlight := by
  obtain ⟨before, after, isSplit, erased, -⟩ := windows_split found
  rw [erased, isSplit]
  simp only [flight_weight_append, flight_weight_singleton]
  omega

theorem status_weight_pos (status : Status Input Slot) : 0 < status.weight := by
  cases status with
  | finished _ | panicked => exact Nat.one_pos
  | calling work =>
    cases work with
    | merged _ | fallback _ _ _ _ | single _ | split _ _ _ _ => exact Nat.succ_pos _

section

variable (found : state.inFlight[index]? = some window)

include found

theorem remove_window_remaining : (state.removeWindow index).remaining < state.remaining := by
  have erased := erased_weight found
  have positive := status_weight_pos window.status
  unfold remaining removeWindow
  dsimp only
  omega

theorem join_remaining (phase : state.phase = .serving ∨ state.phase = .draining)
    (idle : ∀ work, window.status ≠ .calling work) : (state.join ctx index).remaining < state.remaining := by
  have removed := remove_window_remaining found
  unfold Dispatcher.join
  rw [found]
  dsimp only
  rcases phase with serving | draining
  · rw [serving]
    dsimp only
    have weight : (state.removeWindow index).remaining = _ := serving_remaining serving
    cases status : window.status with
    | calling work => exact (idle work status).elim
    | panicked =>
      refine Nat.lt_of_le_of_lt ?_ removed
      rw [weight]
      change (endFatal _ _).remaining ≤ _
      rw [end_fatal_remaining]
      omega
    | finished outcome =>
      refine Nat.lt_of_le_of_lt ?_ removed
      rw [weight]
      cases outcome with
      | «continue» => exact drain_mailbox_remaining ctx _ _ serving
      | fatal why =>
        change mailboxWeight state.mailbox + load 4 state.queue +
          flightWeight (state.inFlight.eraseIdx index) + 2 ≤ _
        unfold removeWindow
        dsimp only
        omega
  · rw [draining]
    dsimp only
    cases status : window.status with
    | calling work => exact (idle work status).elim
    | panicked => exact removed
    | finished outcome =>
      cases outcome with
      | «continue» => exact removed
      | fatal why => exact removed

theorem returns_remaining {work : Work Input Slot} (calling : window.status = .calling work)
    (outcome : CallOutcome) : (state.returns ctx index outcome).remaining < state.remaining := by
  have lighter := resume_weight ctx window.cap work outcome
  obtain ⟨before, after, isSplit, -, isSet⟩ := windows_split found
  unfold Dispatcher.returns
  rw [found]
  dsimp only
  rw [calling]
  dsimp only
  unfold remaining
  dsimp only
  have heavier : window.status.weight = work.weight := by rw [calling]; rfl
  rw [isSet, isSplit]
  simp only [flight_weight_append, flight_weight_singleton, heavier]
  omega

end

theorem aborted_remaining (bound : index < state.inFlight.length) :
    (state.abortWindow index).remaining < state.remaining := by
  have found : state.inFlight[index]? = some state.inFlight[index] :=
    List.getElem?_eq_getElem bound
  unfold abortWindow
  rw [found]
  exact remove_window_remaining found

theorem enabled_remaining {event : DispatchEvent Input} (enabled : state.Enabled event) :
    (state.step ctx event).remaining < state.remaining := by
  cases event with
  | send _ _ _ | sendShutdown | hangUp => exact enabled.elim
  | receive =>
    obtain ⟨serving, awake⟩ := enabled
    unfold Dispatcher.step
    simp only [serving]
    exact receive_remaining serving awake
  | join index =>
    obtain ⟨phase, window, found, idle⟩ := enabled
    exact join_remaining found phase idle
  | returns index outcome =>
    obtain ⟨window, work, found, calling⟩ := enabled
    exact returns_remaining found calling outcome
  | reaped =>
    obtain ⟨why, dying⟩ := enabled
    unfold Dispatcher.step
    simp only [dying]
    rw [end_fatal_remaining, remaining, dying]
    change _ < _ + _ + _ + 2
    omega
  | graceExpires =>
    obtain ⟨draining, some⟩ := enabled
    unfold Dispatcher.step
    simp only [draining, if_neg some]
    unfold remaining
    rw [draining]
    exact Nat.lt_succ_self _
  | aborted index =>
    obtain ⟨aborting, bound⟩ := enabled
    unfold Dispatcher.step
    simp only [aborting]
    exact aborted_remaining bound

/-- No replica is lost while the model serves, and none is idle while a request
is queued. -/
structure Pooled (replicas : Nat) (state : Dispatcher Input Slot) : Prop where
  all : state.phase = .serving → state.free.length + state.inFlight.length = replicas
  busy : state.phase = .serving → state.queue = [] ∨ state.free = []

variable {replicas : Nat}

theorem dispatch_pooled (free : List Nat)
    (all : free.length + state.inFlight.length = replicas) : (dispatch ctx free state).Pooled replicas := by
  induction free generalizing state with
  | nil => exact ⟨fun _ => all, fun _ => .inr rfl⟩
  | cons replica others ih =>
    unfold Dispatcher.dispatch
    split
    · rename_i empty
      exact ⟨fun _ => all, fun _ => .inl empty⟩
    · refine ih ?_
      unfold startWindow
      dsimp only
      rw [List.length_append, List.length_singleton, ← all, List.length_cons]
      omega

theorem drain_mailbox_pooled (mailbox : List (DispatchMsg Input))
    (all : state.free.length + state.inFlight.length = replicas) :
    (drainMailbox ctx mailbox state).Pooled replicas := by
  induction mailbox generalizing state with
  | nil => exact dispatch_pooled state.free all
  | cons message rest ih =>
    cases message with
    | predict request => exact ih all
    | shutdown => exact ⟨nofun, nofun⟩

section

variable (pooled : state.Pooled replicas)

include pooled

theorem Pooled.receive (serving : state.phase = .serving) : (state.receive ctx).Pooled replicas := by
  unfold Dispatcher.receive
  split
  · split
    · exact ⟨nofun, nofun⟩
    · exact pooled
  · exact ⟨nofun, nofun⟩
  · exact drain_mailbox_pooled _ (pooled.all serving)

theorem Pooled.join (index : Nat) : (state.join ctx index).Pooled replicas := by
  unfold Dispatcher.join
  split
  · exact pooled
  rename_i window found
  split
  · rename_i serving
    cases status : window.status with
    | calling work => exact pooled
    | panicked => exact ⟨nofun, nofun⟩
    | finished outcome =>
      cases outcome with
      | «continue» =>
        refine drain_mailbox_pooled _ ?_
        have all := pooled.all serving
        have bound : index < state.inFlight.length := (List.getElem?_eq_some_iff.mp found).1
        unfold removeWindow
        dsimp only
        rw [List.length_cons, List.length_eraseIdx, if_pos bound]
        omega
      | fatal why => exact ⟨nofun, nofun⟩
  · rename_i draining
    have other (next : Dispatcher Input Slot) (same : next.phase = state.phase) :
        next.Pooled replicas := by
      rw [draining] at same
      constructor <;> rw [same] <;> exact nofun
    cases status : window.status with
    | calling work => exact pooled
    | panicked => exact other _ rfl
    | finished outcome =>
      cases outcome with
      | «continue» => exact other _ rfl
      | fatal why => exact other _ rfl
  · exact pooled
  · exact pooled

theorem Pooled.step (event : DispatchEvent Input) : (state.step ctx event).Pooled replicas := by
  cases event with
  | send inputs maxBatch payloadBytes =>
    unfold Dispatcher.step
    dsimp only
    split
    · exact pooled
    · unfold Dispatcher.send
      dsimp only
      split
      · exact ⟨pooled.all, pooled.busy⟩
      · exact ⟨pooled.all, pooled.busy⟩
  | sendShutdown =>
    unfold Dispatcher.step
    dsimp only
    split
    · exact pooled
    · exact ⟨pooled.all, pooled.busy⟩
  | hangUp => exact ⟨pooled.all, pooled.busy⟩
  | receive =>
    unfold Dispatcher.step
    dsimp only
    split
    · rename_i serving
      exact pooled.receive serving
    all_goals exact pooled
  | join index => exact pooled.join index
  | returns index outcome =>
    unfold Dispatcher.step Dispatcher.returns
    dsimp only
    split
    · exact pooled
    · split
      · refine ⟨fun serving => ?_, pooled.busy⟩
        dsimp only
        rw [List.length_set]
        exact pooled.all serving
      · exact pooled
      · exact pooled
  | reaped =>
    unfold Dispatcher.step
    dsimp only
    split
    · exact ⟨nofun, nofun⟩
    all_goals exact pooled
  | graceExpires =>
    unfold Dispatcher.step
    dsimp only
    split
    · split
      · exact pooled
      · exact ⟨nofun, nofun⟩
    all_goals exact pooled
  | aborted index =>
    unfold Dispatcher.step
    dsimp only
    split
    · rename_i aborting
      have same : (state.abortWindow index).phase = .aborting := by
        unfold abortWindow
        split
        · exact aborting
        · exact aborting
      constructor <;> rw [same] <;> exact nofun
    all_goals exact pooled

end

/-- A state from which only a caller's event leads on. -/
def AtRest (state : Dispatcher Input Slot) : Prop := ∀ event, ¬state.Enabled event

theorem AtRest.no_window (rest : state.AtRest)
    (phase : state.phase = .serving ∨ state.phase = .draining) : state.inFlight = [] := by
  cases windows : state.inFlight with
  | nil => rfl
  | cons window others =>
    have found : state.inFlight[0]? = some window := by rw [windows]; rfl
    cases status : window.status with
    | calling work => exact (rest (.returns 0 .slots) ⟨window, work, found, status⟩).elim
    | finished outcome =>
      exact (rest (.join 0) ⟨phase, window, found, by rw [status]; exact nofun⟩).elim
    | panicked => exact (rest (.join 0) ⟨phase, window, found, by rw [status]; exact nofun⟩).elim

theorem AtRest.empty (rest : state.AtRest) (accounted : state.Accounted ctx)
    (pooled : state.Pooled replicas) (some : 0 < replicas) :
    state.inFlight = [] ∧ state.queue = [] ∧ state.mailbox = [] := by
  cases phase : state.phase with
  | serving =>
    have none := rest.no_window (.inl phase)
    have mailbox : state.mailbox = [] := by
      by_contra some
      exact rest .receive ⟨phase, .inl some⟩
    have all := pooled.all phase
    rw [none, List.length_nil, Nat.add_zero] at all
    have idle : state.free ≠ [] := fun empty => by
      rw [empty, List.length_nil] at all
      omega
    exact ⟨none, (pooled.busy phase).resolve_right idle, mailbox⟩
  | dying why => exact (rest .reaped ⟨why, phase⟩).elim
  | draining =>
    obtain ⟨queue, mailbox, -⟩ := accounted.ended (by rw [phase]; trivial)
    exact ⟨rest.no_window (.inr phase), queue, mailbox⟩
  | aborting =>
    obtain ⟨queue, mailbox, -⟩ := accounted.ended (by rw [phase]; trivial)
    refine ⟨?_, queue, mailbox⟩
    by_contra some
    exact rest (.aborted 0) ⟨phase, List.length_pos_iff.mpr some⟩

end Dispatcher

end Panoptikon.Inferio.Dispatch
