import Panoptikon.Inferio.BatchProgress
import Mathlib.Data.List.Nodup

/-!
# What a caller sees of batching

Of the windows a request went through, its caller sees nothing: one reply, with
the slots of its own inputs or with its own error. Only the end of the model shows,
and to a request in flight at a graceful end not even that.
-/

namespace Panoptikon.Inferio.Dispatch

open Foundation Panoptikon.Inferio

variable {Input Slot : Type} {ctx : DispatcherContext Input Slot}

/-- The reply speaks of a worker's death or of the model's end. -/
def Reply.Ends : Reply Slot → Prop
  | .fatal _ | .failed _ | .dropped => True
  | .outputs _ | .workerError _ => False

structure Transparent (ctx : DispatcherContext Input Slot) (replicas : Nat)
    (state : Dispatcher Input Slot) : Prop where
  once : ∀ id, replied state.replies id ≤ 1
  known : ∀ reply ∈ state.replies, ∃ request ∈ state.sent, request.id = reply.1
  own : ∀ request ∈ state.sent, ∀ slots, (request.id, Reply.outputs slots) ∈ state.replies →
    slots = request.inputs.map ctx.slotOf
  /-- The windows, in their order, and then the queue are what was sent. -/
  fifo : state.windows.flatten ++ state.queue <+: state.sent
  isolated : ∀ request ∈ state.sent, ∀ why,
    (request.id, Reply.workerError why) ∈ state.replies →
      ∃ call ∈ state.calls, call.members = [request.id] ∧ call.inputs <:+: request.inputs ∧
        call.outcome = .workerError why
  ends : ∀ reply ∈ state.replies, reply.2.Ends →
    state.phase.Ended ∨ ∃ call ∈ state.calls, call.outcome.Fatal
  /-- A request that no window took hears of the end. -/
  unserved : ∀ request ∈ state.sent, request ∉ state.windows.flatten → ∀ reply,
    (request.id, reply) ∈ state.replies → state.phase.Ended ∧ reply.Stopped
  progress : ∀ event, state.Enabled event → (state.step ctx event).remaining < state.remaining
  answered : 0 < replicas → state.AtRest → ∀ request ∈ state.sent,
    replied state.replies request.id = 1

namespace Dispatcher

variable {state : Dispatcher Input Slot}

theorem Accounted.distinct (accounted : state.Accounted ctx) : (state.sent.map DispatchRequest.id).Nodup := by
  rw [accounted.ids]
  exact List.nodup_range

theorem Accounted.sent_once (accounted : state.Accounted ctx) {request : DispatchRequest Input}
    (member : request ∈ state.sent) : tally state.sent request.id = 1 :=
  List.count_eq_one_of_mem accounted.distinct (List.mem_map_of_mem member)

theorem Accounted.same (accounted : state.Accounted ctx) {request other : DispatchRequest Input}
    (member : request ∈ state.sent) (isOther : other ∈ state.sent) (same : other.id = request.id) :
    other = request :=
  List.inj_on_of_nodup_map accounted.distinct isOther member same

theorem Accounted.reply_explained (accounted : state.Accounted ctx)
    {request : DispatchRequest Input} (member : request ∈ state.sent) {reply : Reply Slot}
    (given : (request.id, reply) ∈ state.replies) :
    reply.Explained ctx state.calls (request ∈ state.windows.flatten) state.phase.Ended
      request := by
  obtain ⟨other, isOther, sameId, explained⟩ := accounted.explained _ given
  cases accounted.same member isOther sameId
  exact explained

theorem Accounted.transparent {replicas : Nat} (accounted : state.Accounted ctx)
    (pooled : state.Pooled replicas) : Transparent ctx replicas state where
  once := by
    intro id
    have counted := accounted.counted id
    have bound : tally state.sent id ≤ 1 := List.nodup_iff_count_le_one.mp accounted.distinct id
    omega
  known := by
    intro reply member
    obtain ⟨request, isMember, isId, -⟩ := accounted.explained reply member
    exact ⟨request, isMember, isId⟩
  own := by
    intro request member slots given
    rcases accounted.reply_explained member given with ⟨-, right⟩ | ⟨-, stopped⟩
    · exact right
    · exact stopped.elim
  fifo := by
    obtain ⟨refused, order, -⟩ := accounted.order
    rw [List.append_assoc (state.windows.flatten ++ state.queue)] at order
    exact ⟨_, order⟩
  isolated := by
    intro request member why given
    rcases accounted.reply_explained member given with ⟨-, right⟩ | ⟨-, stopped⟩
    · exact right
    · exact stopped.elim
  ends := by
    intro reply member isEnd
    obtain ⟨request, -, -, ⟨-, right⟩ | ⟨ended, -⟩⟩ := accounted.explained reply member
    · obtain ⟨id, reply⟩ := reply
      cases reply with
      | outputs _ | workerError _ => exact isEnd.elim
      | fatal _ | failed _ => exact .inr right
      | dropped => exact right.elim
    · exact .inl ended
  unserved := by
    intro request member noWindow reply given
    rcases accounted.reply_explained member given with ⟨served, -⟩ | stopped
    · exact (noWindow served).elim
    · exact stopped
  progress := fun _ enabled => enabled_remaining enabled
  answered := by
    intro some rest request member
    obtain ⟨windows, queue, mailbox⟩ := rest.empty accounted pooled some
    have counted := accounted.counted request.id
    rw [windows, queue, mailbox, accounted.sent_once member] at counted
    simpa [inWindows, requestsOf] using counted

theorem accounted_init (replicas : Nat) : (dispatcherMachine ctx replicas).init.Accounted ctx where
  ids := rfl
  order := ⟨[], rfl, fun _ => rfl⟩
  counted := fun _ => rfl
  windows := nofun
  explained := nofun
  ended := nofun
  going := fun _ => rfl

theorem pooled_init (replicas : Nat) : (dispatcherMachine ctx replicas).init.Pooled replicas where
  all := fun _ => (Nat.add_zero _).trans List.length_range
  busy := fun _ => .inl rfl

end Dispatcher

/-- Whatever is asked, by however many callers, of however many replicas. -/
theorem run_transparent (ctx : DispatcherContext Input Slot) (replicas : Nat)
    (events : List (DispatchEvent Input)) :
    Transparent ctx replicas ((dispatcherMachine ctx replicas).run events) := by
  have kept := (dispatcherMachine ctx replicas).run_invariant
    (fun state => state.Accounted ctx ∧ state.Pooled replicas) (fun _ _ => True)
    ⟨Dispatcher.accounted_init replicas, Dispatcher.pooled_init replicas⟩
    (fun _ event _ holds => ⟨holds.1.step event, holds.2.step event⟩) events
    ((dispatcherMachine ctx replicas).admitted_run_of_forall fun _ _ => trivial)
  exact kept.1.transparent kept.2

/-- No request that had no reply when the model ended gets outputs. -/
def EndsUnanswered (ctx : DispatcherContext Input Slot) (replicas : Nat) : Prop :=
  ∀ events later : List (DispatchEvent Input),
    let ended := (dispatcherMachine ctx replicas).run events
    ended.phase.Ended → ∀ request ∈ ended.sent, replied ended.replies request.id = 0 →
      ∀ slots, (request.id, Reply.outputs slots) ∉
        ((dispatcherMachine ctx replicas).run (events ++ later)).replies

/-- A window in flight when the model is unloaded finishes. -/
theorem unloaded_window_finishes : ¬EndsUnanswered (⟨none, 64, id, (· + 1)⟩ : DispatcherContext Nat Nat) 1 := by
  intro claim
  exact claim [.send [7] none 8, .receive, .sendShutdown, .receive] [.returns 0 .slots] trivial
    ⟨0, [7], none, 8⟩ (List.mem_singleton_self _) rfl [8] (List.mem_singleton_self _)

end Panoptikon.Inferio.Dispatch
