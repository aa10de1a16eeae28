import Panoptikon.Inferio.Worker

/-!
# What a worker's supervisor can do

Every event has one of a few effects on a session. Each is stated with what it
needs of the future it meets, so that the invariants below go by the effects and
not by the code.
-/

namespace Panoptikon.Inferio

open Foundation Panoptikon.Embedding

/-- What the streams hold behind the last whole exchange while a cycle rests. -/
def Stage.Holds (payload sent got : List UInt8) : Stage → Prop
  | .writing left => sent ++ left = lengthPrefix.frame payload ∧ got = []
  | .flushing => sent = lengthPrefix.frame payload ∧ got = []
  | .readingHeader header =>
      sent = lengthPrefix.frame payload ∧ got = header ∧ header.length ≤ lengthPrefix.width
  | .readingPayload length body =>
      sent = lengthPrefix.frame payload ∧ body.length ≤ length ∧
        ∃ header, header.length = lengthPrefix.width ∧ lengthPrefix.read header = length ∧
          got = header ++ body

/-- A reply that no frame is behind. -/
def Reply.Empty : Reply → Prop
  | .ok _ _ | .workerError _ _ => False
  | .refused _ | .dead | .fatal _ | .killed => True

namespace Session

/-- A request may be sent. -/
structure Ready (session : Session) : Prop where
  idle : session.future = none
  kept : session.consumed = false
  alive : session.worker.dead = false
  quiet : session.worker.inFlight = false

def draw (session : Session) (unread bytes : List UInt8) : Session :=
  { session with unread, taken := session.taken ++ bytes }

theorem draw_nil (session : Session) : session.draw session.unread [] = session := by
  rw [draw, List.append_nil]

/-- The request at rest shows in the worker, that of a shutdown in its owner. -/
def Claims (session : Session) (request : Request) : Prop :=
  if request.IsUnload then session.consumed = true else session.worker.inFlight = true

def setNextId (session : Session) (nextId : UInt64) : Session :=
  { session with worker := { session.worker with nextId } }

inductive Effect (codec : Codec) (session : Session) : Session → Prop where
  | arrive (unread : List UInt8) : Effect codec session { session with unread }
  | refuse (request : Request) (reply : Reply) (nextId : UInt64) (idle : session.future = none)
      (empty : reply.Empty) :
      Effect codec session ((session.setNextId nextId).note (.returned request reply))
  | accept (request : Request) (payload : List UInt8) (worker : Worker) (consumed : Bool)
      (ready : session.Ready)
      (encoded : encodeFrame codec (request.frame session.worker.nextId) = .ok payload)
      (claims : Claims { session with worker, consumed } request) :
      Effect codec session
        ({ session with worker, consumed }.send session.worker.nextId request payload)
  | consume (idle : session.future = none) : Effect codec session session.consume
  | close (nextId : UInt64) (idle : session.future = none) :
      Effect codec session ((session.setNextId nextId).consume.await .killing)
  | strand (request : Request) (why : Fatality) (idle : session.future = none)
      (inFlight : session.worker.inFlight = true) : Effect codec session (session.fatal request why)
  | progress (id : UInt64) (request : Request) (payload : List UInt8) (stage next : Stage)
      (unread wrote drew : List UInt8)
      (at_stage : session.future = some (.cycle id request payload stage))
      (holds : ∀ sent got, stage.Holds payload sent got →
        next.Holds payload (sent ++ wrote) (got ++ drew)) :
      Effect codec session
        (({ session with written := session.written ++ wrote }.draw unread drew).await
          (.cycle id request payload next))
  | poison (id : UInt64) (request : Request) (payload : List UInt8) (stage : Stage)
      (why : Fatality) (unread drew : List UInt8)
      (at_stage : session.future = some (.cycle id request payload stage)) :
      Effect codec session ((session.draw unread drew).fatal request why)
  | giveUp (id : UInt64) (request : Request) (payload : List UInt8) (stage : Stage)
      (unread drew : List UInt8)
      (at_stage : session.future = some (.cycle id request payload stage))
      (unload : request.IsUnload) :
      Effect codec session ((session.draw unread drew).await .killing)
  | settle (id : UInt64) (request : Request) (payload response : List UInt8) (stage : Stage)
      (entries : List (Value × Value)) (verdict : Verdict) (unread drew : List UInt8)
      (at_stage : session.future = some (.cycle id request payload stage))
      (holds : ∀ sent got, stage.Holds payload sent got →
        sent = lengthPrefix.frame payload ∧ got ++ drew = lengthPrefix.frame response)
      (decoded : codec.readValue response = .ok (.map entries))
      (sameId : responseId entries = some id)
      (judged : request.judge codec id entries = .completes verdict) :
      Effect codec session
        (((session.draw unread drew).settle ⟨id, request, payload, response⟩).conclude
          request id verdict)
  | dropCycle (id : UInt64) (request : Request) (payload : List UInt8) (stage : Stage)
      (at_stage : session.future = some (.cycle id request payload stage)) :
      Effect codec session ({ session with future := none }.note (.dropped request))
  | dropOther (future : Future) (resting : session.future = some future)
      (other : ∀ id request payload stage, future ≠ .cycle id request payload stage) :
      Effect codec session { session with future := none }
  | exitFails (id : UInt64) (exiting : session.future = some (.exiting id)) :
      Effect codec session (session.await .killing)
  | exited (id : UInt64) (exiting : session.future = some (.exiting id)) :
      Effect codec session (session.finish .unload (.ok id .done))
  | reaped (request : Request) (reply : Reply) (empty : reply.Empty)
      (gone : (∃ request why, session.future = some (.reaping request why)) ∨
        session.future = some .killing) :
      Effect codec session (session.finish request reply)

variable {codec : Codec} {session : Session}

theorem Effect.stay : Effect codec session session := .arrive session.unread

theorem roundtrip_effect (request : Request) (plain : ¬request.IsUnload)
    (idle : session.future = none) (kept : session.consumed = false) : Effect codec session
    (session.roundtrip codec request) := by
  unfold roundtrip
  split
  · exact .refuse request .dead session.worker.nextId idle trivial
  rename_i alive
  split
  · rename_i inFlight
    exact .strand request .droppedRequest idle inFlight
  rename_i quiet
  split
  · rename_i fault _
    exact .refuse request (.refused fault) _ idle trivial
  · rename_i payload encoded
    have ready : session.Ready := ⟨idle, kept, by simpa using alive, by simpa using quiet⟩
    exact .accept request payload ⟨session.worker.nextId + 1, true, session.worker.dead⟩
      session.consumed ready encoded (by rw [Claims, if_neg plain])

theorem shutdown_effect (idle : session.future = none) (kept : session.consumed = false) :
    Effect codec session (session.shutdown codec) := by
  unfold shutdown
  split
  · exact .close session.worker.nextId idle
  rename_i alive
  split
  · exact .close session.worker.nextId idle
  rename_i quiet
  split
  · exact .close _ idle
  · rename_i payload encoded
    have ready : session.Ready := ⟨idle, kept, by simpa using alive, by simpa using quiet⟩
    exact .accept .unload payload { session.worker with nextId := session.worker.nextId + 1 }
      true ready encoded rfl

theorem begin_effect (request : Request) (idle : session.future = none) :
    Effect codec session (session.begin codec request) := by
  unfold begin
  split
  · exact .stay
  rename_i kept
  have kept : session.consumed = false := by simpa using kept
  split
  · exact shutdown_effect idle kept
  · rename_i plain
    exact roundtrip_effect request plain idle kept

section Cycle

variable {id : UInt64} {request : Request} {payload : List UInt8} {stage : Stage}

theorem abandon_effect (at_stage : session.future = some (.cycle id request payload stage))
    (unread drew : List UInt8) (why : Fatality) :
    Effect codec session ((session.draw unread drew).abandon request why) := by
  unfold abandon
  split
  · rename_i unload
    exact .giveUp id request payload stage unread drew at_stage unload
  · exact .poison id request payload stage why unread drew at_stage

theorem complete_effect (at_stage : session.future = some (.cycle id request payload stage))
    (unread drew response : List UInt8)
    (holds : ∀ sent got, stage.Holds payload sent got →
      sent = lengthPrefix.frame payload ∧ got ++ drew = lengthPrefix.frame response) :
    Effect codec session ((session.draw unread drew).complete codec id request payload response) := by
  unfold complete
  split
  · exact abandon_effect at_stage unread drew _
  · rename_i entries decoded
    split
    · exact abandon_effect at_stage unread drew _
    rename_i sameId
    split
    · exact abandon_effect at_stage unread drew _
    · rename_i verdict judged
      exact .settle id request payload response stage entries verdict unread drew at_stage holds
        decoded (by simpa using sameId) judged
  · exact abandon_effect at_stage unread drew _

theorem draw_effect (at_stage : session.future = some (.cycle id request payload stage))
    (unread drew : List UInt8) (next : Stage)
    (holds : ∀ sent got, stage.Holds payload sent got → next.Holds payload sent (got ++ drew)) :
    Effect codec session ((session.draw unread drew).await (.cycle id request payload next)) := by
  have effect := @Effect.progress codec session id request payload stage next unread [] drew
    at_stage (fun sent got held => by rw [List.append_nil]; exact holds sent got held)
  rw [List.append_nil] at effect
  exact effect

theorem payload_read_effect (at_stage : session.future = some (.cycle id request payload stage))
    (unread drew : List UInt8) (length : Nat) (body : List UInt8)
    (holds : ∀ sent got, stage.Holds payload sent got →
      (Stage.readingPayload length body).Holds payload sent (got ++ drew)) :
    Effect codec session
      ((session.draw unread drew).payloadRead codec id request payload length body) := by
  unfold payloadRead
  split
  · rename_i whole
    refine complete_effect at_stage unread drew body fun sent got held => ?_
    obtain ⟨allSent, -, header, isHeader, isLength, drawn⟩ := holds sent got held
    refine ⟨allSent, ?_⟩
    rw [drawn, lengthPrefix.frame_of_read isHeader (isLength.trans whole.symm)]
  · exact draw_effect at_stage unread drew _ holds

theorem header_read_effect {header : List UInt8}
    (at_stage : session.future = some (.cycle id request payload (.readingHeader header)))
    (unread drew : List UInt8)
    (fits : header.length ≤ lengthPrefix.width → (header ++ drew).length ≤ lengthPrefix.width) :
    Effect codec session
      ((session.draw unread drew).headerRead codec id request payload (header ++ drew)) := by
  unfold headerRead
  split
  · rename_i whole
    split
    · exact abandon_effect at_stage unread drew _
    · refine payload_read_effect at_stage unread drew _ [] fun sent got held => ?_
      obtain ⟨allSent, rfl, -⟩ := held
      exact ⟨allSent, Nat.zero_le _, got ++ drew, whole, rfl, (List.append_nil _).symm⟩
  · refine draw_effect at_stage unread drew _ fun sent got held => ?_
    obtain ⟨allSent, rfl, short⟩ := held
    exact ⟨allSent, rfl, fits short⟩

theorem read_effect (at_stage : session.future = some (.cycle id request payload stage))
    (count : Nat) : Effect codec session (session.readSome codec id request payload count stage) := by
  cases stage with
  | writing | flushing => exact .stay
  | readingHeader header =>
    refine header_read_effect at_stage _ _ fun short => ?_
    rw [List.length_append, List.length_take]
    omega
  | readingPayload length body =>
    refine payload_read_effect at_stage _ _ length _ fun sent got held => ?_
    obtain ⟨allSent, fits, header, isHeader, isLength, rfl⟩ := held
    refine ⟨allSent, ?_, header, isHeader, isLength, List.append_assoc _ _ _⟩
    rw [List.length_append, List.length_take]
    omega

theorem write_effect {left : List UInt8}
    (at_stage : session.future = some (.cycle id request payload (.writing left))) (count : Nat) :
    Effect codec session (session.writeSome id request payload left count) := by
  have effect (next : Stage) (holds : ∀ sent got, (Stage.writing left).Holds payload sent got →
      next.Holds payload (sent ++ left.take count) got) :
      Effect codec session
        ({ session with written := session.written ++ left.take count }.await
          (.cycle id request payload next)) := by
    have effect := @Effect.progress codec session id request payload _ next session.unread
      (left.take count) [] at_stage (fun sent got held => by
        rw [List.append_nil]
        exact holds sent got held)
    rw [draw, List.append_nil] at effect
    exact effect
  unfold writeSome
  refine effect _ fun sent got held => ?_
  obtain ⟨isFrame, nothing⟩ := held
  split
  · rename_i whole
    have taken : left.take count = left := by
      have parts := List.take_append_drop count left
      rwa [whole, List.append_nil] at parts
    rw [taken]
    exact ⟨isFrame, nothing⟩
  · refine ⟨?_, nothing⟩
    rw [List.append_assoc, List.take_append_drop, isFrame]

theorem flush_effect (at_stage : session.future = some (.cycle id request payload .flushing)) :
    Effect codec session (session.await (.cycle id request payload (.readingHeader []))) := by
  have effect := @draw_effect codec session id request payload _ at_stage session.unread [] (.readingHeader [])
    fun sent got held => ⟨held.1, by rw [held.2, List.append_nil], Nat.zero_le _⟩
  rw [draw_nil] at effect
  exact effect

theorem break_effect (at_stage : session.future = some (.cycle id request payload stage))
    (why : Fatality) : Effect codec session (session.abandon request why) := by
  have effect := @abandon_effect codec session id request payload stage at_stage session.unread [] why
  rw [draw_nil] at effect
  exact effect

theorem cycle_effect (at_stage : session.future = some (.cycle id request payload stage))
    (event : Event) : Effect codec session (session.stepCycle codec id request payload stage event) := by
  cases event with
  | write count =>
    cases stage with
    | writing left => exact write_effect at_stage count
    | flushing | readingHeader _ | readingPayload _ _ => exact .stay
  | flush =>
    cases stage with
    | flushing => exact flush_effect at_stage
    | writing _ | readingHeader _ | readingPayload _ _ => exact .stay
  | read count => exact read_effect at_stage count
  | fails => exact break_effect at_stage _
  | timeout =>
    by_cases bounded : request.hasDeadline
    · simp only [stepCycle, if_pos bounded]
      exact break_effect at_stage _
    · simp only [stepCycle, if_neg bounded]
      exact .stay
  | drop => exact .dropCycle id request payload stage at_stage
  | request _ | arrive _ | reaped | exited | kill => exact .stay

end Cycle

theorem future_effect {future : Future} (resting : session.future = some future) (event : Event) :
    Effect codec session (session.stepFuture codec future event) := by
  cases future with
  | cycle id request payload stage => exact cycle_effect resting event
  | reaping request why =>
    cases event with
    | reaped => exact .reaped request (.fatal why) trivial (.inl ⟨request, why, resting⟩)
    | drop => exact .dropOther _ resting fun _ _ _ _ => nofun
    | request _ | write _ | flush | arrive _ | read _ | fails | timeout | exited | kill =>
      exact .stay
  | exiting id =>
    cases event with
    | exited => exact .exited id resting
    | fails | timeout => exact .exitFails id resting
    | drop => exact .dropOther _ resting fun _ _ _ _ => nofun
    | request _ | write _ | flush | arrive _ | read _ | reaped | kill => exact .stay
  | killing =>
    cases event with
    | reaped => exact .reaped .unload .killed trivial (.inr resting)
    | drop => exact .dropOther _ resting fun _ _ _ _ => nofun
    | request _ | write _ | flush | arrive _ | read _ | fails | timeout | exited | kill =>
      exact .stay

theorem idle_effect (idle : session.future = none) (event : Event) :
    Effect codec session (session.stepIdle codec event) := by
  cases event with
  | request request => exact begin_effect request idle
  | kill => exact .consume idle
  | write _ | flush | arrive _ | read _ | fails | timeout | reaped | exited | drop => exact .stay

theorem step_effect (event : Event) : Effect codec session (session.step codec event) := by
  cases rests : session.future with
  | none =>
    have idle : Effect codec session (session.stepIdle codec event) := idle_effect rests event
    cases event with
    | arrive bytes => exact .arrive _
    | request _ | write _ | flush | read _ | fails | timeout | reaped | exited | drop | kill =>
      simpa only [step, rests] using idle
  | some future =>
    have waiting : Effect codec session (session.stepFuture codec future event) := future_effect rests event
    cases event with
    | arrive bytes => exact .arrive _
    | request _ | write _ | flush | read _ | fails | timeout | reaped | exited | drop | kill =>
      simpa only [step, rests] using waiting

end Session

end Panoptikon.Inferio
