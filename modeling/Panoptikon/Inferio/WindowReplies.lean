import Panoptikon.Inferio.Windows

/-!
# The replies of a window

From one call of the worker to the next, a window replies to some of its requests
and keeps the others: none is lost, none has two replies, and the slots of a reply
are those of the request's own inputs, whichever way the window goes.
-/

namespace Panoptikon.Inferio.Dispatch

open Foundation Panoptikon.Inferio

variable {Input Slot : Type}

def CallOutcome.Fatal : CallOutcome → Prop
  | .fatal _ => True
  | .slots | .workerError _ => False

/-- Why a request has a reply, with the calls it may come from. -/
def Reply.Right (ctx : DispatcherContext Input Slot) (calls : List (Call Input))
    (request : DispatchRequest Input) : Reply Slot → Prop
  | .outputs slots => slots = request.inputs.map ctx.slotOf
  | .workerError why => ∃ call ∈ calls, call.members = [request.id] ∧
      call.inputs <:+: request.inputs ∧ call.outcome = .workerError why
  | .fatal _ | .failed _ => ∃ call ∈ calls, call.outcome.Fatal
  | .dropped => False

/-- What a window keeps of its requests at the call it rests at. -/
def Work.Fits (ctx : DispatcherContext Input Slot) : Work Input Slot → Prop
  | .merged _ => True
  | .fallback request inputs remaining combined =>
      inputs = request.inputs ∧ combined = (remaining.map Prod.fst).flatMap DispatchRequest.inputs ∧
        ∀ pair ∈ remaining, pair.2 = pair.1.inputs.length
  | .single _ => True
  | .split request outputs chunk rest =>
      ∃ before, request.inputs = before ++ chunk ++ rest ∧ outputs = before.map ctx.slotOf

def Status.Fits (ctx : DispatcherContext Input Slot) : Status Input Slot → Prop
  | .calling work => work.Fits ctx
  | .finished _ => True
  | .panicked => False

/-- A window with these requests got as far as `progress` with these calls. -/
structure Progress.Sound (ctx : DispatcherContext Input Slot)
    (requests : List (DispatchRequest Input)) (calls : List (Call Input))
    (progress : Progress Input Slot) : Prop where
  right : ∀ reply ∈ progress.replies, ∃ request ∈ requests, request.id = reply.1 ∧
    reply.2.Right ctx calls request
  conserved : (progress.status.pending.map DispatchRequest.id ++
    progress.replies.map Prod.fst).Perm (requests.map DispatchRequest.id)
  kept : ∀ request ∈ progress.status.pending, request ∈ requests
  fits : progress.status.Fits ctx

variable {ctx : DispatcherContext Input Slot} {calls : List (Call Input)}

variable {request : DispatchRequest Input}

theorem sound_reply {reply : Reply Slot} (outcome : BatchOutcome) (right : reply.Right ctx calls request) :
    Progress.Sound ctx [request] calls ⟨.finished outcome, [(request.id, reply)]⟩ where
  right := by
    intro given member
    rw [List.mem_singleton.mp member]
    exact ⟨request, List.mem_singleton_self _, rfl, right⟩
  conserved := List.Perm.refl _
  kept := nofun
  fits := trivial

theorem sound_rest {work : Work Input Slot} (pending : work.pending = [request]) (fits : work.Fits ctx) :
    Progress.Sound ctx [request] calls ⟨.calling work, []⟩ where
  right := nofun
  conserved := by
    change (work.pending.map _ ++ []).Perm _
    rw [pending, List.append_nil]
  kept := by
    intro other member
    change other ∈ work.pending at member
    rwa [pending] at member
  fits := fits

variable (cap : Nat)

theorem next_part_sound {before rest : List Input} (parts : request.inputs = before ++ rest) :
    (ctx.nextPart cap request (before.map ctx.slotOf) rest).Sound ctx [request] calls := by
  unfold DispatcherContext.nextPart
  split
  · rename_i whole
    rw [whole, List.append_nil] at parts
    exact sound_reply _ (congrArg (List.map ctx.slotOf) parts.symm)
  · refine sound_rest rfl ⟨before, ?_, rfl⟩
    rw [List.append_assoc, List.take_append_drop, parts]

theorem run_single_sound (request : DispatchRequest Input) :
    (ctx.runSingle cap request).Sound ctx [request] calls := by
  unfold DispatcherContext.runSingle
  split
  · exact sound_rest rfl trivial
  · exact next_part_sound cap (List.nil_append _).symm

theorem resume_single_sound (request : DispatchRequest Input) (outcome : CallOutcome)
    (called : ⟨[request.id], request.inputs, outcome⟩ ∈ calls) :
    (ctx.resumeSingle request outcome).Sound ctx [request] calls := by
  cases outcome with
  | slots => exact sound_reply _ rfl
  | workerError why => exact sound_reply _ ⟨_, called, rfl, List.infix_rfl, rfl⟩
  | fatal why => exact sound_reply _ ⟨_, called, trivial⟩

theorem resume_split_sound {outputs : List Slot} {chunk rest : List Input} (outcome : CallOutcome)
    (fits : (Work.split request outputs chunk rest).Fits ctx) (called : ⟨[request.id], chunk, outcome⟩ ∈ calls) :
    (ctx.resumeSplit cap request outputs chunk rest outcome).Sound ctx [request] calls := by
  obtain ⟨before, parts, rfl⟩ := fits
  cases outcome with
  | slots =>
    rw [DispatcherContext.resumeSplit, ← List.map_append]
    exact next_part_sound cap parts
  | workerError why => exact sound_reply _ ⟨_, called, rfl, ⟨before, rest, parts.symm⟩, rfl⟩
  | fatal why => exact sound_reply _ ⟨_, called, trivial⟩

theorem fail_requests_right {requests : List (DispatchRequest Input)} {why : String}
    (fatal : ∃ call ∈ calls, call.outcome.Fatal) :
    ∀ reply ∈ (failRequests requests why : List (Nat × Reply Slot)), ∃ request ∈ requests,
      request.id = reply.1 ∧ reply.2.Right ctx calls request := by
  intro reply member
  obtain ⟨request, isMember, rfl⟩ := List.mem_map.mp member
  exact ⟨request, isMember, rfl, fatal⟩

variable (requests : List (DispatchRequest Input))

@[simp] theorem fail_requests_ids (why : String) :
    (failRequests requests why : List (Nat × Reply Slot)).map Prod.fst =
      requests.map DispatchRequest.id := by
  rw [failRequests, List.map_map]
  rfl

@[simp] theorem drop_requests_ids :
    (dropRequests requests : List (Nat × Reply Slot)).map Prod.fst =
      requests.map DispatchRequest.id := by
  rw [dropRequests, List.map_map]
  rfl

theorem next_fallback_sound (remaining : List (DispatchRequest Input × Nat))
    (counts : ∀ pair ∈ remaining, pair.2 = pair.1.inputs.length) :
    (DispatcherContext.nextFallback remaining
      ((remaining.map Prod.fst).flatMap DispatchRequest.inputs)).Sound ctx
        (remaining.map Prod.fst) calls := by
  cases remaining with
  | nil => exact ⟨nofun, List.Perm.refl _, nofun, trivial⟩
  | cons first rest =>
    obtain ⟨request, count⟩ := first
    have isCount : count = request.inputs.length := counts (request, count) (by simp)
    subst isCount
    have enough : request.inputs.length ≤
        (((request, request.inputs.length) :: rest).map Prod.fst |>.flatMap
          DispatchRequest.inputs).length := by simp
    rw [DispatcherContext.nextFallback, if_pos enough, List.map_cons, List.flatMap_cons,
      List.take_left, List.drop_left]
    refine ⟨nofun, ?_, fun _ member => member, rfl, rfl, fun pair member => ?_⟩
    · exact .of_eq (List.append_nil _)
    · exact counts pair (List.mem_cons_of_mem _ member)

theorem sound_cons {requests : List (DispatchRequest Input)} {reply : Reply Slot} {progress : Progress Input Slot}
    (right : reply.Right ctx calls request) (sound : progress.Sound ctx requests calls) :
    Progress.Sound ctx (request :: requests) calls
      { progress with replies := (request.id, reply) :: progress.replies } where
  right := by
    intro given member
    rcases List.mem_cons.mp member with rfl | later
    · exact ⟨request, List.mem_cons_self, rfl, right⟩
    · obtain ⟨other, isMember, rest⟩ := sound.right given later
      exact ⟨other, List.mem_cons_of_mem _ isMember, rest⟩
  conserved := List.perm_middle.trans (sound.conserved.cons _)
  kept := fun other member => List.mem_cons_of_mem _ (sound.kept other member)
  fits := sound.fits

theorem sound_fail (why : String) (fatal : ∃ call ∈ calls, call.outcome.Fatal) :
    Progress.Sound ctx requests calls ⟨.finished (.fatal why), failRequests requests why⟩ where
  right := fail_requests_right fatal
  conserved := .of_eq (fail_requests_ids requests why)
  kept := nofun
  fits := trivial

theorem resume_fallback_sound {inputs combined : List Input}
    {remaining : List (DispatchRequest Input × Nat)} (outcome : CallOutcome)
    (fits : (Work.fallback request inputs remaining combined : Work Input Slot).Fits ctx)
    (called : ⟨[request.id], inputs, outcome⟩ ∈ calls) :
    (ctx.resumeFallback request inputs remaining combined outcome).Sound ctx
      (request :: remaining.map Prod.fst) calls := by
  obtain ⟨rfl, rfl, counts⟩ := fits
  have next := @next_fallback_sound _ _ ctx calls remaining counts
  cases outcome with
  | slots => exact sound_cons rfl next
  | workerError why => exact sound_cons ⟨_, called, rfl, List.infix_rfl, rfl⟩ next
  | fatal why =>
    exact @sound_cons _ _ ctx calls request _ (.fatal why) _ ⟨_, called, trivial⟩
      (sound_fail _ why ⟨_, called, trivial⟩)

theorem split_window_outputs_map (slotOf : Input → Slot) (window : List (DispatchRequest Input)) :
    splitWindowOutputs ((window.flatMap DispatchRequest.inputs).map slotOf)
        (window.map fun request => request.inputs.length) =
      some (window.map fun request => request.inputs.map slotOf) := by
  induction window with
  | nil => rfl
  | cons request rest ih =>
    have length : (request.inputs.map slotOf).length = request.inputs.length :=
      List.length_map slotOf
    rw [List.flatMap_cons, List.map_append, List.map_cons, splitWindowOutputs, if_pos (by simp),
      List.drop_left' length, List.take_left' length, ih]
    rfl

theorem zip_map_self {Elem Other Result : Type} (elems : List Elem) (other : Elem → Other)
    (combine : Elem × Other → Result) : (elems.zip (elems.map other)).map combine =
      elems.map fun elem => combine (elem, other elem) := by
  induction elems with
  | nil => rfl
  | cons elem rest ih => rw [List.map_cons, List.zip_cons_cons, List.map_cons, ih, List.map_cons]

theorem resume_merged_sound (window : List (DispatchRequest Input)) (outcome : CallOutcome)
    (called : ⟨window.map DispatchRequest.id, window.flatMap DispatchRequest.inputs, outcome⟩ ∈
      calls) :
    (ctx.resumeMerged window outcome).Sound ctx window calls := by
  cases outcome with
  | slots =>
    simp only [DispatcherContext.resumeMerged, split_window_outputs_map, zip_map_self]
    refine ⟨fun reply member => ?_, ?_, nofun, trivial⟩
    · obtain ⟨request, isMember, rfl⟩ := List.mem_map.mp member
      exact ⟨request, isMember, rfl, rfl⟩
    · rw [List.map_map]
      exact List.Perm.refl _
  | workerError why =>
    have firsts : (window.map fun request => (request, request.inputs.length)).map Prod.fst =
        window := by
      rw [List.map_map]
      exact List.map_id window
    have next := @next_fallback_sound _ _ ctx calls
      (window.map fun request => (request, request.inputs.length))
      (fun pair member => by
        obtain ⟨request, -, rfl⟩ := List.mem_map.mp member
        rfl)
    rwa [firsts] at next
  | fatal why => exact sound_fail window why ⟨_, called, trivial⟩

theorem run_batch_sound (window : List (DispatchRequest Input)) :
    (ctx.runBatch cap window).Sound ctx window calls := by
  have merged (window : List (DispatchRequest Input)) :
      Progress.Sound ctx window calls (⟨.calling (.merged window), []⟩ : Progress Input Slot) :=
    ⟨nofun, .of_eq (List.append_nil _), fun _ member => member, trivial⟩
  match window with
  | [] => exact merged []
  | [request] => exact run_single_sound cap request
  | first :: second :: rest => exact merged (first :: second :: rest)

theorem resume_sound (work : Work Input Slot) (outcome : CallOutcome)
    (fits : work.Fits ctx) (called : ⟨work.members, work.inputs, outcome⟩ ∈ calls) :
    (ctx.resume cap work outcome).Sound ctx work.pending calls := by
  cases work with
  | merged window => exact resume_merged_sound window outcome called
  | fallback request inputs remaining combined => exact resume_fallback_sound outcome fits called
  | single request => exact resume_single_sound request outcome called
  | split request outputs chunk rest => exact resume_split_sound cap outcome fits called

end Panoptikon.Inferio.Dispatch
