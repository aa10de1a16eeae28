import Panoptikon.Inferio.Dispatcher
import Panoptikon.Inferio.WindowReplies

/-!
# Batching is transparent

Whatever the callers ask for and in whatever order the windows go on, each request
is at one place only: in the mailbox, in the queue, in a window, or with its reply.
-/

namespace Panoptikon.Inferio.Dispatch

open Foundation Panoptikon.Inferio

variable {Input Slot : Type} {ctx : DispatcherContext Input Slot}

/-- The model takes no more requests. -/
def Phase.Ended : Phase → Prop
  | .draining | .aborting => True
  | .serving | .dying _ => False

/-- The request has nothing of a worker in its reply. -/
def Reply.Stopped : Reply Slot → Prop
  | .failed _ | .dropped => True
  | .outputs _ | .workerError _ | .fatal _ => False

/-- A request of a window has what its calls say, and one of no window only hears
that the model ended. -/
def Reply.Explained (ctx : DispatcherContext Input Slot) (calls : List (Call Input))
    (served ended : Prop) (request : DispatchRequest Input) (reply : Reply Slot) : Prop :=
  (served ∧ reply.Right ctx calls request) ∨ (ended ∧ reply.Stopped)

variable {request : DispatchRequest Input}

theorem Reply.Right.mono {calls later : List (Call Input)}
    {reply : Reply Slot} (right : reply.Right ctx calls request) (more : calls ⊆ later) :
    reply.Right ctx later request := by
  cases reply with
  | outputs slots => exact right
  | workerError why =>
    obtain ⟨call, member, rest⟩ := right
    exact ⟨call, more member, rest⟩
  | fatal why | failed why =>
    obtain ⟨call, member, rest⟩ := right
    exact ⟨call, more member, rest⟩
  | dropped => exact right

theorem Reply.Explained.mono {calls later : List (Call Input)} {served taken ended closed : Prop} {reply : Reply Slot}
    (explained : reply.Explained ctx calls served ended request) (more : calls ⊆ later)
    (takes : served → taken) (ends : ended → closed) : reply.Explained ctx later taken closed request :=
  explained.imp (fun right => ⟨takes right.1, right.2.mono more⟩)
    fun stopped => ⟨ends stopped.1, stopped.2⟩

/-- How often a request is among these. -/
def tally (requests : List (DispatchRequest Input)) (id : Nat) : Nat :=
  (requests.map DispatchRequest.id).count id

@[simp] theorem tally_nil (id : Nat) : tally ([] : List (DispatchRequest Input)) id = 0 := rfl

@[simp] theorem tally_append (first last : List (DispatchRequest Input)) (id : Nat) :
    tally (first ++ last) id = tally first id + tally last id := by
  rw [tally, List.map_append, List.count_append]
  rfl

variable (requests : List (DispatchRequest Input))

theorem tally_split (place id : Nat) :
    tally (requests.take place) id + tally (requests.drop place) id = tally requests id := by
  rw [← tally_append, List.take_append_drop]

def replied (replies : List (Nat × Reply Slot)) (id : Nat) : Nat :=
  (replies.map Prod.fst).count id

@[simp] theorem replied_append (first last : List (Nat × Reply Slot)) (id : Nat) :
    replied (first ++ last) id = replied first id + replied last id := by
  rw [replied, List.map_append, List.count_append]
  rfl

@[simp] theorem replied_fail (why : String) (id : Nat) :
    replied (failRequests requests why : List (Nat × Reply Slot)) id = tally requests id := by
  rw [replied, fail_requests_ids, tally]

@[simp] theorem replied_drop (id : Nat) :
    replied (dropRequests requests : List (Nat × Reply Slot)) id = tally requests id := by
  rw [replied, drop_requests_ids, tally]

theorem Progress.Sound.tally {requests : List (DispatchRequest Input)} {calls : List (Call Input)}
    {progress : Progress Input Slot} (sound : progress.Sound ctx requests calls) (id : Nat) :
    tally progress.status.pending id + replied progress.replies id = tally requests id := by
  have count := sound.conserved.count_eq id
  rwa [List.count_append] at count

/-- The requests in windows that have no reply. -/
def inWindows (inFlight : List (InFlight Input Slot)) : List (DispatchRequest Input) :=
  inFlight.flatMap fun window => window.status.pending

@[simp] theorem in_windows_append (first last : List (InFlight Input Slot)) :
    inWindows (first ++ last) = inWindows first ++ inWindows last := List.flatMap_append

@[simp] theorem in_windows_singleton (window : InFlight Input Slot) :
    inWindows [window] = window.status.pending := List.append_nil _

theorem windows_split {inFlight : List (InFlight Input Slot)} {index : Nat}
    {window : InFlight Input Slot} (found : inFlight[index]? = some window) :
    ∃ before after, inFlight = before ++ [window] ++ after ∧
      inFlight.eraseIdx index = before ++ after ∧
      ∀ next, inFlight.set index next = before ++ [next] ++ after := by
  obtain ⟨bound, isWindow⟩ := List.getElem?_eq_some_iff.mp found
  refine ⟨inFlight.take index, inFlight.drop (index + 1), ?_, List.eraseIdx_eq_take_drop_succ ..,
    fun next => ?_⟩
  · rw [← isWindow, List.append_assoc, List.singleton_append, List.getElem_cons_drop,
      List.take_append_drop]
  · rw [List.set_eq_take_append_cons_drop, if_pos bound, List.append_assoc, List.singleton_append]

@[simp] theorem requests_of_append (first last : List (DispatchMsg Input)) :
    requestsOf (first ++ last) = requestsOf first ++ requestsOf last := List.filterMap_append

@[simp] theorem requests_of_predict (request : DispatchRequest Input)
    (rest : List (DispatchMsg Input)) :
    requestsOf (.predict request :: rest) = request :: requestsOf rest := rfl

@[simp] theorem requests_of_shutdown (rest : List (DispatchMsg Input)) :
    requestsOf (.shutdown :: rest) = requestsOf rest := rfl

namespace Dispatcher

variable {state : Dispatcher Input Slot}

/-- What is true of each request wherever it is. -/
structure Accounted (ctx : DispatcherContext Input Slot) (state : Dispatcher Input Slot) : Prop where
  ids : state.sent.map DispatchRequest.id = List.range state.sent.length
  /-- The windows are prefixes of the queue, and the queue of what was sent. -/
  order : ∃ refused, state.windows.flatten ++ state.queue ++ requestsOf state.mailbox ++ refused =
    state.sent ∧ (state.closed = false → refused = [])
  counted : ∀ id, tally (inWindows state.inFlight) id + tally state.queue id +
    tally (requestsOf state.mailbox) id + replied state.replies id = tally state.sent id
  windows : ∀ window ∈ state.inFlight, window.status.Fits ctx ∧
    ∀ request ∈ window.status.pending, request ∈ state.windows.flatten
  explained : ∀ reply ∈ state.replies, ∃ request ∈ state.sent, request.id = reply.1 ∧
    reply.2.Explained ctx state.calls (request ∈ state.windows.flatten) state.phase.Ended request
  ended : state.phase.Ended → state.queue = [] ∧ state.mailbox = [] ∧ state.closed = true
  going : ¬state.phase.Ended → state.closed = false

section

variable (accounted : state.Accounted ctx)

include accounted

theorem Accounted.queued (member : request ∈ state.queue ++ requestsOf state.mailbox) : request ∈ state.sent := by
  obtain ⟨refused, order, -⟩ := accounted.order
  rw [← order]
  rw [List.mem_append] at member
  simp only [List.mem_append]
  tauto

theorem Accounted.windowed (member : request ∈ state.windows.flatten) : request ∈ state.sent := by
  obtain ⟨refused, order, -⟩ := accounted.order
  rw [← order]
  exact List.mem_append_left _ (List.mem_append_left _ (List.mem_append_left _ member))

theorem Accounted.start_window (going : ¬state.phase.Ended)
    (replica : Nat) : (state.startWindow ctx replica).Accounted ctx := by
  unfold startWindow
  extract_lets cap unitCounts take window progress
  have sound : progress.Sound ctx window state.calls := run_batch_sound cap window
  obtain ⟨refused, order, whole⟩ := accounted.order
  have taken : ∀ request ∈ window, request ∈ state.sent := fun request member =>
    accounted.queued (List.mem_append_left _ (List.mem_of_mem_take member))
  refine ⟨accounted.ids, ⟨refused, ?_, whole⟩, fun id => ?_, ?_, ?_, fun ended => ?_,
    accounted.going⟩
  · rw [← order, List.flatten_append, List.flatten_singleton, List.append_assoc state.windows.flatten,
      List.take_append_drop]
  · have counted := accounted.counted id
    have conserved := sound.tally id
    have parts := tally_split state.queue take id
    simp only [in_windows_append, in_windows_singleton, tally_append, replied_append]
    change tally progress.status.pending id + _ = tally (state.queue.take take) id at conserved
    omega
  · intro other member
    rw [List.flatten_append, List.flatten_singleton]
    rcases List.mem_append.mp member with old | new
    · obtain ⟨fits, served⟩ := accounted.windows other old
      exact ⟨fits, fun request isPending => List.mem_append_left _ (served request isPending)⟩
    · rw [List.mem_singleton.mp new]
      exact ⟨sound.fits, fun request isPending =>
        List.mem_append_right _ (sound.kept request isPending)⟩
  · intro reply member
    rw [List.flatten_append, List.flatten_singleton]
    rcases List.mem_append.mp member with old | new
    · obtain ⟨request, isMember, isId, explained⟩ := accounted.explained reply old
      exact ⟨request, isMember, isId,
        explained.mono (fun _ same => same) (List.mem_append_left _) fun ended => ended⟩
    · obtain ⟨request, isMember, isId, right⟩ := sound.right reply new
      exact ⟨request, taken request isMember, isId, .inl ⟨List.mem_append_right _ isMember, right⟩⟩
  · exact (going ended).elim

theorem Accounted.free (free : List Nat) : ({ state with free } : Dispatcher Input Slot).Accounted ctx :=
  ⟨accounted.ids, accounted.order, accounted.counted, accounted.windows, accounted.explained,
    accounted.ended, accounted.going⟩

theorem Accounted.dispatch (going : ¬state.phase.Ended)
    (free : List Nat) : (dispatch ctx free state).Accounted ctx := by
  induction free generalizing state with
  | nil => exact accounted.free []
  | cons replica others ih =>
    unfold Dispatcher.dispatch
    split
    · exact accounted.free _
    · exact ih (accounted.start_window going replica) going

theorem Accounted.end_with (phase : Phase) (ended : phase.Ended)
    (why : String) : ({ state.failQueue why with phase } : Dispatcher Input Slot).Accounted ctx := by
  obtain ⟨refused, order, -⟩ := accounted.order
  refine ⟨accounted.ids, ⟨state.queue ++ requestsOf state.mailbox ++ refused, ?_, nofun⟩,
    fun id => ?_, accounted.windows, ?_, fun _ => ⟨rfl, rfl, rfl⟩, fun going => (going ended).elim⟩
  · refine Eq.trans ?_ order
    simp only [failQueue, requestsOf, List.filterMap_nil, List.append_nil, List.append_assoc]
  · have counted := accounted.counted id
    simp only [failQueue, requestsOf, List.filterMap_nil, tally_nil, replied_append, replied_fail,
      tally_append] at counted ⊢
    omega
  · intro reply member
    rcases List.mem_append.mp member with old | new
    · obtain ⟨request, isMember, isId, explained⟩ := accounted.explained reply old
      exact ⟨request, isMember, isId, explained.mono (fun _ same => same) (fun same => same) fun _ => ended⟩
    · obtain ⟨request, isMember, rfl⟩ := List.mem_map.mp new
      exact ⟨request, accounted.queued isMember, rfl, .inr ⟨ended, trivial⟩⟩

theorem Accounted.end_graceful : state.endGraceful.Accounted ctx :=
  accounted.end_with .draining trivial _

theorem Accounted.end_fatal (why : String) : (state.endFatal why).Accounted ctx :=
  accounted.end_with .aborting trivial why

end

theorem Accounted.enqueue {rest : List (DispatchMsg Input)}
    (accounted : ({ state with mailbox := .predict request :: rest } :
      Dispatcher Input Slot).Accounted ctx) :
    ({ state with queue := state.queue ++ [request], mailbox := rest } :
      Dispatcher Input Slot).Accounted ctx := by
  refine ⟨accounted.ids, ?_, fun id => ?_, accounted.windows, accounted.explained,
    fun ended => ?_, accounted.going⟩
  · obtain ⟨refused, order, whole⟩ := accounted.order
    refine ⟨refused, ?_, whole⟩
    rw [← order]
    simp only [requests_of_predict, List.append_assoc, List.cons_append, List.nil_append]
  · have counted := accounted.counted id
    have one : tally (request :: requestsOf rest) id =
        tally [request] id + tally (requestsOf rest) id := tally_append [request] _ id
    simp only [requests_of_predict, one, tally_append] at counted ⊢
    omega
  · cases (accounted.ended ended).2.1

theorem Accounted.drop_shutdown {rest : List (DispatchMsg Input)}
    (accounted : ({ state with mailbox := .shutdown :: rest } :
      Dispatcher Input Slot).Accounted ctx) :
    ({ state with mailbox := rest } : Dispatcher Input Slot).Accounted ctx :=
  ⟨accounted.ids, accounted.order, accounted.counted, accounted.windows, accounted.explained,
    fun ended => (by cases (accounted.ended ended).2.1), accounted.going⟩

theorem Accounted.drain_mailbox {mailbox : List (DispatchMsg Input)}
    (accounted : ({ state with mailbox } : Dispatcher Input Slot).Accounted ctx)
    (going : ¬state.phase.Ended) : (drainMailbox ctx mailbox state).Accounted ctx := by
  induction mailbox generalizing state with
  | nil => exact accounted.dispatch going state.free
  | cons message rest ih =>
    cases message with
    | predict request => exact ih accounted.enqueue going
    | shutdown => exact accounted.drop_shutdown.end_graceful

section

variable (accounted : state.Accounted ctx)

include accounted

theorem Accounted.receive (going : ¬state.phase.Ended) : (state.receive ctx).Accounted ctx := by
  unfold Dispatcher.receive
  split
  · split
    · exact accounted.end_graceful
    · exact accounted
  · rename_i rest isMailbox
    have accounted : ({ state with mailbox := .shutdown :: rest } :
        Dispatcher Input Slot).Accounted ctx := isMailbox ▸ accounted
    exact accounted.drop_shutdown.end_graceful
  · rename_i request rest isMailbox
    have accounted : ({ state with mailbox := .predict request :: rest } :
        Dispatcher Input Slot).Accounted ctx := isMailbox ▸ accounted
    exact accounted.enqueue.drain_mailbox going

theorem Accounted.remove_window {index : Nat}
    {window : InFlight Input Slot} (found : state.inFlight[index]? = some window)
    (drained : window.status.pending = []) : (state.removeWindow index).Accounted ctx := by
  obtain ⟨before, after, isSplit, erased, -⟩ := windows_split found
  refine ⟨accounted.ids, accounted.order, fun id => ?_, fun other member => ?_, accounted.explained,
    accounted.ended, accounted.going⟩
  · have counted := accounted.counted id
    rw [isSplit] at counted
    simp only [removeWindow, erased, in_windows_append, in_windows_singleton, drained,
      List.append_nil] at counted ⊢
    exact counted
  · exact accounted.windows other (List.mem_of_mem_eraseIdx member)

theorem Accounted.dying (going : ¬state.phase.Ended)
    (why : String) : ({ state with phase := .dying why } : Dispatcher Input Slot).Accounted ctx := by
  refine ⟨accounted.ids, accounted.order, accounted.counted, accounted.windows,
    fun reply member => ?_, nofun, fun _ => accounted.going going⟩
  obtain ⟨request, isMember, isId, explained⟩ := accounted.explained reply member
  exact ⟨request, isMember, isId, explained.mono (fun _ same => same) (fun same => same) fun ended =>
    (going ended).elim⟩

theorem Accounted.join (index : Nat) : (state.join ctx index).Accounted ctx := by
  unfold Dispatcher.join
  split
  · exact accounted
  rename_i window found
  split
  · rename_i serving
    have going : ¬state.phase.Ended := by rw [serving]; exact id
    have member := List.mem_of_getElem? found
    have fits := (accounted.windows window member).1
    cases status : window.status with
    | calling work => exact accounted
    | panicked => rw [status] at fits; exact fits.elim
    | finished outcome =>
      have removed := accounted.remove_window found (by rw [status]; rfl)
      cases outcome with
      | «continue» => exact (removed.free (window.replica :: state.free)).drain_mailbox going
      | fatal why => exact removed.dying going why
  · cases status : window.status with
    | calling work => exact accounted
    | panicked => exact accounted.remove_window found (by rw [status]; rfl)
    | finished outcome =>
      have removed := accounted.remove_window found (by rw [status]; rfl)
      cases outcome with
      | «continue» => exact removed.free (window.replica :: state.free)
      | fatal why => exact removed
  · exact accounted
  · exact accounted

theorem Accounted.returns (index : Nat) (outcome : CallOutcome) :
    (state.returns ctx index outcome).Accounted ctx := by
  unfold Dispatcher.returns
  split
  · exact accounted
  rename_i window found
  split
  · rename_i work calling
    extract_lets progress
    obtain ⟨before, after, isSplit, -, isSet⟩ := windows_split found
    obtain ⟨fits, served⟩ := accounted.windows window (List.mem_of_getElem? found)
    rw [calling] at fits served
    have sound : progress.Sound ctx work.pending
        (state.calls ++ [⟨work.members, work.inputs, outcome⟩]) :=
      resume_sound window.cap work outcome fits (by simp)
    refine ⟨accounted.ids, accounted.order, fun id => ?_, fun other member => ?_,
      fun reply member => ?_, accounted.ended, accounted.going⟩
    · have counted := accounted.counted id
      have conserved := sound.tally id
      have pending : window.status.pending = work.pending := by rw [calling]; rfl
      rw [isSplit] at counted
      simp only [isSet, in_windows_append, in_windows_singleton, tally_append, replied_append,
        pending] at counted ⊢
      omega
    · rw [isSet] at member
      have old (isOld : other ∈ before ∨ other ∈ after) := accounted.windows other (by
        rw [isSplit]
        simp only [List.mem_append]
        tauto)
      simp only [List.mem_append, List.mem_singleton] at member
      rcases member with (isBefore | rfl) | isAfter
      · exact old (.inl isBefore)
      · exact ⟨sound.fits, fun request isPending => served request (sound.kept request isPending)⟩
      · exact old (.inr isAfter)
    · rcases List.mem_append.mp member with isOld | isNew
      · obtain ⟨request, isMember, isId, explained⟩ := accounted.explained reply isOld
        exact ⟨request, isMember, isId,
          explained.mono (fun _ => List.mem_append_left _) (fun same => same) fun ended => ended⟩
      · obtain ⟨request, isMember, isId, right⟩ := sound.right reply isNew
        have isServed := served request isMember
        exact ⟨request, accounted.windowed isServed, isId, .inl ⟨isServed, right⟩⟩
  · exact accounted
  · exact accounted

theorem Accounted.abort_window (ended : state.phase.Ended)
    (index : Nat) : (state.abortWindow index).Accounted ctx := by
  unfold abortWindow
  split
  · exact accounted
  rename_i window found
  obtain ⟨before, after, isSplit, erased, -⟩ := windows_split found
  refine ⟨accounted.ids, accounted.order, fun id => ?_, fun other member => ?_,
    fun reply member => ?_, accounted.ended, accounted.going⟩
  · have counted := accounted.counted id
    rw [isSplit] at counted
    simp only [removeWindow, erased, in_windows_append, in_windows_singleton, tally_append,
      replied_append, replied_drop] at counted ⊢
    omega
  · exact accounted.windows other (List.mem_of_mem_eraseIdx member)
  · rcases List.mem_append.mp member with isOld | isNew
    · exact accounted.explained reply isOld
    · obtain ⟨request, isMember, rfl⟩ := List.mem_map.mp isNew
      have isServed := (accounted.windows window (List.mem_of_getElem? found)).2 request isMember
      exact ⟨request, accounted.windowed isServed, rfl, .inr ⟨ended, trivial⟩⟩

theorem Accounted.send (inputs : List Input) (maxBatch : Option Nat) (payloadBytes : Nat) :
    (state.send inputs maxBatch payloadBytes).Accounted ctx := by
  unfold Dispatcher.send
  extract_lets request sent
  have ids : sent.sent.map DispatchRequest.id = List.range sent.sent.length := by
    rw [show sent.sent = state.sent ++ [request] from rfl, List.map_append, accounted.ids,
      List.length_append, List.length_singleton, List.range_succ]
    rfl
  have explained : ∀ reply ∈ state.replies, ∃ request ∈ sent.sent, request.id = reply.1 ∧
      reply.2.Explained ctx state.calls (request ∈ state.windows.flatten) state.phase.Ended
        request := by
    intro reply member
    obtain ⟨other, isMember, rest⟩ := accounted.explained reply member
    exact ⟨other, List.mem_append_left _ isMember, rest⟩
  obtain ⟨refused, order, whole⟩ := accounted.order
  split
  · rename_i closed
    have ended : state.phase.Ended := by
      by_contra going
      rw [accounted.going going] at closed
      cases closed
    refine ⟨ids, ⟨refused ++ [request], ?_, ?_⟩, fun id => ?_, accounted.windows, ?_, accounted.ended,
      accounted.going⟩
    · rw [← List.append_assoc]
      exact congrArg (· ++ [request]) order
    · intro isOpen
      rw [show state.closed = false from isOpen] at closed
      cases closed
    · have counted := accounted.counted id
      rw [show sent.sent = state.sent ++ [request] from rfl]
      simp only [replied_append, replied_drop, tally_append]
      change tally (inWindows state.inFlight) id + tally state.queue id +
        tally (requestsOf state.mailbox) id + (replied state.replies id + _) = _
      omega
    · intro reply member
      rcases List.mem_append.mp member with old | new
      · exact explained reply old
      · cases List.mem_singleton.mp new
        exact ⟨request, List.mem_append_right _ (by simp), rfl, .inr ⟨ended, trivial⟩⟩
  · rename_i isOpen
    have isOpen : state.closed = false := by simpa using isOpen
    have none := whole isOpen
    subst none
    refine ⟨ids, ⟨[], ?_, fun _ => rfl⟩, fun id => ?_, accounted.windows, explained, fun ended => ?_,
      accounted.going⟩
    · rw [List.append_nil] at order
      rw [show sent.sent = state.sent ++ [request] from rfl, ← order, requests_of_append]
      simp only [requests_of_predict, List.append_assoc, List.append_nil]
      rfl
    · have counted := accounted.counted id
      rw [show sent.sent = state.sent ++ [request] from rfl, requests_of_append]
      simp only [requests_of_predict, tally_append]
      change tally (inWindows state.inFlight) id + tally state.queue id +
        (tally (requestsOf state.mailbox) id + tally [request] id) + replied state.replies id = _
      omega
    · rw [(accounted.ended ended).2.2] at isOpen
      cases isOpen

theorem Accounted.step (event : DispatchEvent Input) : (state.step ctx event).Accounted ctx := by
  cases event with
  | send inputs maxBatch payloadBytes =>
    unfold Dispatcher.step
    dsimp only
    split
    · exact accounted
    · exact accounted.send inputs maxBatch payloadBytes
  | sendShutdown =>
    unfold Dispatcher.step
    dsimp only
    split
    · exact accounted
    · rename_i takes
      obtain ⟨refused, order, whole⟩ := accounted.order
      refine ⟨accounted.ids, ⟨refused, ?_, whole⟩, fun id => ?_, accounted.windows,
        accounted.explained, fun ended => ?_, accounted.going⟩
      · rw [← order, requests_of_append]
        simp [requestsOf]
      · have counted := accounted.counted id
        rw [requests_of_append]
        simpa [requestsOf] using counted
      · exact (takes (.inr (accounted.ended ended).2.2)).elim
  | hangUp =>
    exact ⟨accounted.ids, accounted.order, accounted.counted, accounted.windows,
      accounted.explained, accounted.ended, accounted.going⟩
  | receive =>
    unfold Dispatcher.step
    dsimp only
    split
    · rename_i serving
      exact accounted.receive (by rw [serving]; exact id)
    all_goals exact accounted
  | join index => exact accounted.join index
  | returns index outcome => exact accounted.returns index outcome
  | reaped =>
    unfold Dispatcher.step
    dsimp only
    split
    · exact accounted.end_fatal _
    all_goals exact accounted
  | graceExpires =>
    unfold Dispatcher.step
    dsimp only
    split
    · rename_i draining
      have ended : state.phase.Ended := by rw [draining]; trivial
      split
      · exact accounted
      · refine ⟨accounted.ids, accounted.order, accounted.counted, accounted.windows,
          fun reply member => ?_, fun _ => accounted.ended ended, fun going => (going trivial).elim⟩
        obtain ⟨request, isMember, isId, explained⟩ := accounted.explained reply member
        exact ⟨request, isMember, isId, explained.mono (fun _ same => same) (fun same => same) fun _ => trivial⟩
    all_goals exact accounted
  | aborted index =>
    unfold Dispatcher.step
    dsimp only
    split
    · rename_i aborting
      exact accounted.abort_window (by rw [aborting]; trivial) index
    all_goals exact accounted

end

end Dispatcher

end Panoptikon.Inferio.Dispatch
