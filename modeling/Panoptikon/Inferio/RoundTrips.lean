import Panoptikon.Inferio.WorkerSteps

/-!
# Round trips of a worker

In every session the streams hold whole exchanges, and behind them at most the
one of the resting cycle; a reply is made of the frame that carries its request's
id; and behind a dropped request or a fatal error no request goes onto the
stream.
-/

namespace Panoptikon.Inferio

open Foundation

variable {codec : Codec} {session : Session}

/-- The frame that answered a request carries its id. -/
structure Exchange.Matched (codec : Codec) (exchange : Exchange) (entries : List (Value × Value)) :
    Prop where
  sent : encodeFrame codec (exchange.request.frame exchange.id) = .ok exchange.payload
  decoded : codec.readValue exchange.response = .ok (.map entries)
  sameId : responseId entries = some exchange.id

/-- A reply is what its request makes of a frame with the request's id. -/
def Reply.Backed (codec : Codec) (exchanges : List Exchange) (request : Request) (id : UInt64)
    (reply : Reply) : Prop :=
  ∃ exchange ∈ exchanges, ∃ entries, exchange.id = id ∧ exchange.request = request ∧
    exchange.Matched codec entries ∧
    request.judge codec id entries = .completes (.reply reply)

/-- A reply made of a frame names the id of its request. -/
def Reply.Corresponds (codec : Codec) (exchanges : List Exchange) (request : Request) :
    Reply → Prop
  | .ok id answer => (Reply.ok id answer).Backed codec exchanges request id
  | .workerError id error => (Reply.workerError id error).Backed codec exchanges request id
  | .refused _ | .dead | .fatal _ | .killed => True

theorem Reply.Empty.corresponds {reply : Reply} (empty : reply.Empty) (exchanges : List Exchange)
    (request : Request) : reply.Corresponds codec exchanges request := by
  cases reply with
  | ok _ _ | workerError _ _ => exact empty.elim
  | refused _ | dead | fatal _ | killed => trivial

variable {exchanges : List Exchange}

variable {id : UInt64}

variable {request : Request}

theorem Reply.Backed.append
    {reply : Reply} (backed : reply.Backed codec exchanges request id) (later : List Exchange) :
    reply.Backed codec (exchanges ++ later) request id := by
  obtain ⟨exchange, member, rest⟩ := backed
  exact ⟨exchange, List.mem_append_left later member, rest⟩

theorem Reply.Corresponds.append {reply : Reply}
    (corresponds : reply.Corresponds codec exchanges request) (later : List Exchange) :
    reply.Corresponds codec (exchanges ++ later) request := by
  cases reply with
  | ok | workerError => exact Reply.Backed.append corresponds later
  | refused _ | dead | fatal _ | killed => trivial

/-- The replies a verdict gives for the frame of an id. -/
def Reply.Of (id : UInt64) : Reply → Prop
  | .ok replied _ | .workerError replied _ => replied = id
  | .refused _ | .dead | .fatal _ | .killed => False

theorem deliver_outputs_of {inputs : List WorkerInput} {entries : List (Value × Value)} {reply : Reply}
    (delivered : deliverOutputs codec id inputs entries = .reply reply) : reply.Of id := by
  unfold deliverOutputs at delivered
  split at delivered
  · split at delivered
    · cases delivered
    · split at delivered
      · cases delivered
        rfl
      · cases delivered
      · cases delivered
        rfl
  · cases delivered

theorem deliver_of {entries : List (Value × Value)}
    {reply : Reply} (delivered : request.deliver codec id entries = .reply reply) : reply.Of id := by
  cases request with
  | handshake implClass implDirs =>
    simp only [Request.deliver] at delivered
    split at delivered
    · cases delivered
    · cases delivered
      rfl
  | predict inputs => exact deliver_outputs_of delivered
  | configure _ _ | prewarm | load | ping | unload =>
    cases delivered
    rfl

theorem judge_of {entries : List (Value × Value)} {reply : Reply}
    (judged : request.judge codec id entries = .completes (.reply reply)) : reply.Of id := by
  unfold Request.judge at judged
  split at judged
  · exact deliver_of (Judgement.completes.inj judged)
  · split at judged
    · cases judged
      rfl
    · cases judged

theorem Reply.Backed.corresponds {reply : Reply} (backed : reply.Backed codec exchanges request id) :
    reply.Corresponds codec exchanges request := by
  have ofId : reply.Of id := by
    obtain ⟨_, _, _, _, _, _, judged⟩ := backed
    exact judge_of judged
  cases reply with
  | ok | workerError =>
    cases ofId
    exact backed
  | refused _ | dead | fatal _ | killed => trivial

theorem judge_unload {entries : List (Value × Value)} {verdict : Verdict} (unload : request.IsUnload)
    (judged : request.judge codec id entries = .completes verdict) :
    request = .unload ∧ verdict = .reply (.ok id .done) := by
  cases request with
  | unload =>
    unfold Request.judge at judged
    split at judged
    · exact ⟨rfl, (Judgement.completes.inj judged).symm⟩
    · rw [if_neg fun both => both.2 unload] at judged
      cases judged
  | handshake _ _ | configure _ _ | prewarm | load | predict _ | ping => exact unload.elim

namespace Session

/-- What the log says came of the requests, against the exchanges. -/
structure Corresponds (codec : Codec) (session : Session) : Prop where
  returned : ∀ request reply, Entry.returned request reply ∈ session.log →
    reply.Corresponds codec session.exchanges request
  exiting : ∀ id, session.future = some (.exiting id) →
    (Reply.ok id .done).Backed codec session.exchanges .unload id

variable {next : Session}

/-- Where the exchanges stay, an entry of the log is an old one or corresponds. -/
theorem Corresponds.of_log (corresponds : session.Corresponds codec)
    (exchanges : next.exchanges = session.exchanges)
    (logged : ∀ request reply, Entry.returned request reply ∈ next.log →
      Entry.returned request reply ∈ session.log ∨
        reply.Corresponds codec session.exchanges request)
    (exiting : ∀ id, next.future ≠ some (.exiting id)) : next.Corresponds codec := by
  constructor
  · intro request reply member
    rw [exchanges]
    rcases logged request reply member with old | new
    · exact corresponds.returned request reply old
    · exact new
  · intro id found
    exact (exiting id found).elim

theorem Corresponds.append (corresponds : session.Corresponds codec)
    (entry : Entry) (exchanges : next.exchanges = session.exchanges)
    (logged : next.log = session.log ++ [entry]) (exiting : ∀ id, next.future ≠ some (.exiting id))
    (plain : ∀ request reply, entry = .returned request reply →
      reply.Corresponds codec session.exchanges request) : next.Corresponds codec := by
  refine corresponds.of_log exchanges (fun request reply member => ?_) exiting
  rw [logged, List.mem_append, List.mem_singleton] at member
  exact member.imp_right fun equal => plain request reply equal.symm

theorem Corresponds.keep (corresponds : session.Corresponds codec)
    (exchanges : next.exchanges = session.exchanges) (logged : next.log = session.log)
    (exiting : ∀ id, next.future ≠ some (.exiting id)) : next.Corresponds codec :=
  corresponds.of_log exchanges (fun _ _ member => .inl (logged ▸ member)) exiting

theorem Corresponds.settle (corresponds : session.Corresponds codec) (exchange : Exchange) :
    (session.settle exchange).Corresponds codec := by
  constructor
  · intro request reply member
    exact (corresponds.returned request reply member).append [exchange]
  · intro id found
    cases found

theorem Corresponds.conclude (corresponds : session.Corresponds codec) {verdict : Verdict}
    (backed : ∀ reply, verdict = .reply reply → reply.Backed codec session.exchanges request id)
    (unload : request.IsUnload → request = .unload ∧ verdict = .reply (.ok id .done)) :
    (session.conclude request id verdict).Corresponds codec := by
  cases verdict with
  | fatal why =>
    unfold Session.conclude abandon
    dsimp only
    split
    · exact corresponds.keep rfl rfl (by rintro _ ⟨⟩)
    · exact corresponds.append _ rfl rfl (by rintro _ ⟨⟩) (by rintro _ _ ⟨⟩)
  | reply reply =>
    unfold Session.conclude
    dsimp only
    split
    · rename_i isUnload
      obtain ⟨rfl, isOk⟩ := unload isUnload
      have backed := backed reply rfl
      cases isOk
      refine ⟨corresponds.returned, fun other found => ?_⟩
      cases found
      exact backed
    · refine corresponds.append _ rfl rfl (by rintro _ ⟨⟩) fun _ _ equal => ?_
      cases equal
      exact (backed reply rfl).corresponds

theorem corresponds_effect (effect : Effect codec session next) (corresponds : session.Corresponds codec)
    (matched : ∀ id request payload stage,
      session.future = some (.cycle id request payload stage) →
        encodeFrame codec (request.frame id) = .ok payload) : next.Corresponds codec := by
  cases effect with
  | arrive unread => exact ⟨corresponds.returned, corresponds.exiting⟩
  | refuse request reply nextId idle empty =>
    refine corresponds.append _ rfl rfl (fun id found => ?_) fun _ _ equal => ?_
    · cases idle.symm.trans found
    · cases equal
      exact empty.corresponds _ _
  | accept request payload worker consumed ready encoded claimed =>
    exact corresponds.append _ rfl rfl (by rintro _ ⟨⟩) (by rintro _ _ ⟨⟩)
  | consume idle => exact ⟨corresponds.returned, corresponds.exiting⟩
  | close nextId idle => exact corresponds.keep rfl rfl (by rintro _ ⟨⟩)
  | strand request why idle inFlight => exact corresponds.append _ rfl rfl (by rintro _ ⟨⟩) (by rintro _ _ ⟨⟩)
  | progress id request payload stage next unread wrote drew at_stage holds =>
    exact corresponds.keep rfl rfl (by rintro _ ⟨⟩)
  | poison id request payload stage why unread drew at_stage =>
    exact corresponds.append _ rfl rfl (by rintro _ ⟨⟩) (by rintro _ _ ⟨⟩)
  | giveUp id request payload stage unread drew at_stage unload =>
    exact corresponds.keep rfl rfl (by rintro _ ⟨⟩)
  | settle id request payload response stage entries verdict unread drew at_stage holds decoded
      sameId judged =>
      have drawn : (session.draw unread drew).Corresponds codec :=
        ⟨corresponds.returned, corresponds.exiting⟩
      refine (drawn.settle _).conclude (fun reply isReply => ?_) fun unload =>
        judge_unload unload judged
      refine ⟨⟨id, request, payload, response⟩, List.mem_append_right _ (by simp), entries, rfl,
        rfl, ⟨matched _ _ _ _ at_stage, decoded, sameId⟩, ?_⟩
      rw [judged, isReply]
  | dropCycle id request payload stage at_stage => exact corresponds.append _ rfl rfl (by rintro _ ⟨⟩) (by rintro _ _ ⟨⟩)
  | dropOther | exitFails => exact corresponds.keep rfl rfl (by rintro _ ⟨⟩)
  | exited id exiting =>
    refine corresponds.append _ rfl rfl (by rintro _ ⟨⟩) fun _ _ equal => ?_
    cases equal
    exact corresponds.exiting id exiting
  | reaped request reply empty gone =>
    refine corresponds.append _ rfl rfl (by rintro _ ⟨⟩) fun _ _ equal => ?_
    cases equal
    exact empty.corresponds _ _

/-- What the future at rest says of the worker. -/
structure Flagged (session : Session) : Prop where
  cycle : ∀ id request payload stage,
    session.future = some (.cycle id request payload stage) → session.Claims request
  reaping : ∀ request why, session.future = some (.reaping request why) →
    session.worker.dead = true
  exiting : ∀ id, session.future = some (.exiting id) → session.consumed = true
  killing : session.future = some .killing → session.consumed = true

theorem Flagged.of_none (none : session.future = none) : session.Flagged := by
  constructor
  all_goals
    intros
    simp_all

theorem fatal_flagged (request : Request) (why : Fatality) : (session.fatal request why).Flagged :=
  ⟨(by rintro _ _ _ _ ⟨⟩), fun _ _ _ => rfl, (by rintro _ ⟨⟩), nofun⟩

theorem killing_flagged (consumed : session.consumed = true) : (session.await .killing).Flagged :=
  ⟨(by rintro _ _ _ _ ⟨⟩), (by rintro _ _ ⟨⟩), (by rintro _ ⟨⟩), fun _ => consumed⟩

variable {payload : List UInt8}

variable {stage : Stage}

theorem cycle_flagged (resting : session.future = some (.cycle id request payload stage))
    (claims : session.Claims request) : session.Flagged := by
  refine ⟨fun _ _ _ _ found => ?_, fun _ _ found => ?_, fun _ found => ?_, fun found => ?_⟩
  · cases resting.symm.trans found
    exact claims
  all_goals cases resting.symm.trans found

theorem conclude_flagged (verdict : Verdict) (consumed : request.IsUnload → session.consumed = true) :
    (session.conclude request id verdict).Flagged := by
  cases verdict with
  | fatal why =>
    unfold Session.conclude abandon
    dsimp only
    split
    · rename_i unload
      exact killing_flagged (consumed unload)
    · exact fatal_flagged request why
  | reply reply =>
    unfold Session.conclude
    dsimp only
    split
    · rename_i unload
      exact ⟨(by rintro _ _ _ _ ⟨⟩), (by rintro _ _ ⟨⟩), fun _ _ => consumed unload, nofun⟩
    · exact .of_none rfl

theorem Claims.consumed (claims : session.Claims request)
    (unload : request.IsUnload) : session.consumed = true := by
  rwa [Claims, if_pos unload] at claims

theorem flagged_effect (effect : Effect codec session next) (flagged : session.Flagged) : next.Flagged := by
  cases effect with
  | arrive unread => exact ⟨flagged.cycle, flagged.reaping, flagged.exiting, flagged.killing⟩
  | refuse request reply nextId idle empty => exact .of_none idle
  | accept request payload worker consumed ready encoded claims => exact cycle_flagged rfl claims
  | consume idle => exact .of_none idle
  | close nextId idle => exact killing_flagged rfl
  | strand request why idle inFlight => exact fatal_flagged request why
  | progress id request payload stage next unread wrote drew at_stage holds =>
    exact cycle_flagged rfl (flagged.cycle _ _ _ _ at_stage)
  | poison id request payload stage why unread drew at_stage => exact fatal_flagged request why
  | giveUp id request payload stage unread drew at_stage unload =>
    exact killing_flagged ((flagged.cycle _ _ _ _ at_stage).consumed unload)
  | settle id request payload response stage entries verdict unread drew at_stage holds decoded
      sameId judged =>
      exact conclude_flagged verdict (flagged.cycle _ _ _ _ at_stage).consumed
  | dropCycle | dropOther => exact .of_none rfl
  | exitFails id exiting => exact killing_flagged (flagged.exiting id exiting)
  | exited | reaped => exact .of_none rfl

theorem Flagged.ended (flagged : session.Flagged) {future : Future} (resting : session.future = some future) :
    session.worker.dead = true ∨ session.worker.inFlight = true ∨ session.consumed = true := by
  cases future with
  | cycle id request payload stage =>
    have claims := flagged.cycle id request payload stage resting
    unfold Claims at claims
    split at claims
    · exact .inr (.inr claims)
    · exact .inr (.inl claims)
  | reaping request why => exact .inl (flagged.reaping request why resting)
  | exiting id => exact .inr (.inr (flagged.exiting id resting))
  | killing => exact .inr (.inr (flagged.killing resting))

/-- What the streams hold behind the last whole exchange. -/
def Tail (codec : Codec) (session : Session) (sent got : List UInt8) : Prop :=
  match session.future with
  | none => session.Ready → sent = [] ∧ got = []
  | some (.cycle id request payload stage) =>
      encodeFrame codec (request.frame id) = .ok payload ∧ stage.Holds payload sent got
  | some _ => True

/-- The streams hold one whole frame for each request and each response of the
exchanges, in their order. -/
structure Aligned (codec : Codec) (session : Session) (sent got : List UInt8) : Prop where
  matched : ∀ exchange ∈ session.exchanges, ∃ entries, exchange.Matched codec entries
  written : session.written = lengthPrefix.frames (session.exchanges.map Exchange.payload) ++ sent
  taken : session.taken = lengthPrefix.frames (session.exchanges.map Exchange.response) ++ got

/-- Aligned up to the resting cycle. -/
def InStep (codec : Codec) (session : Session) : Prop :=
  ∃ sent got, session.Aligned codec sent got ∧ session.Tail codec sent got

variable {sent got : List UInt8}

theorem Tail.at_cycle (tail : session.Tail codec sent got)
    (at_stage : session.future = some (.cycle id request payload stage)) :
    encodeFrame codec (request.frame id) = .ok payload ∧ stage.Holds payload sent got := by
  rw [Tail, at_stage] at tail
  exact tail

theorem InStep.matched_cycle (inStep : session.InStep codec)
    (at_stage : session.future = some (.cycle id request payload stage)) :
    encodeFrame codec (request.frame id) = .ok payload := by
  obtain ⟨sent, got, -, tail⟩ := inStep
  exact (tail.at_cycle at_stage).1

theorem Tail.ready (tail : session.Tail codec sent got) (ready : session.Ready) : sent = [] ∧ got = [] := by
  rw [Tail, ready.idle] at tail
  exact tail ready

theorem Tail.of_none (none : session.future = none)
    (ready : session.Ready → sent = [] ∧ got = []) : session.Tail codec sent got := by
  rw [Tail, none]
  exact ready

theorem Tail.of_some {future : Future} (resting : session.future = some future)
    (other : ∀ id request payload stage, future ≠ .cycle id request payload stage) :
    session.Tail codec sent got := by
  rw [Tail, resting]
  cases future with
  | cycle id request payload stage => exact (other id request payload stage rfl).elim
  | reaping _ _ | exiting _ | killing => trivial

theorem Tail.same (tail : session.Tail codec sent got)
    (future : next.future = session.future) (consumed : next.consumed = session.consumed)
    (dead : next.worker.dead = session.worker.dead)
    (inFlight : next.worker.inFlight = session.worker.inFlight) : next.Tail codec sent got := by
  cases resting : session.future with
  | none =>
    refine .of_none (future.trans resting) fun ready => tail.ready ⟨resting, ?_, ?_, ?_⟩
    · rw [← consumed, ready.kept]
    · rw [← dead, ready.alive]
    · rw [← inFlight, ready.quiet]
  | some atRest =>
    cases atRest with
    | cycle id request payload stage =>
      rw [Tail, future, resting]
      exact tail.at_cycle resting
    | reaping _ _ | exiting _ | killing =>
      exact .of_some (future.trans resting) (by rintro _ _ _ _ ⟨⟩)

/-- Between two requests the streams hold whole exchanges and nothing else. -/
theorem InStep.ready (inStep : session.InStep codec) (ready : session.Ready) : session.Aligned codec [] [] := by
  obtain ⟨sent, got, aligned, tail⟩ := inStep
  obtain ⟨rfl, rfl⟩ := tail.ready ready
  exact aligned

theorem Aligned.draw (aligned : session.Aligned codec sent got)
    (unread drew : List UInt8) : (session.draw unread drew).Aligned codec sent (got ++ drew) := by
  refine ⟨aligned.matched, aligned.written, ?_⟩
  change session.taken ++ drew = _ ++ (got ++ drew)
  rw [aligned.taken, List.append_assoc]
  rfl

theorem Aligned.settle {exchange : Exchange}
    {entries : List (Value × Value)} (aligned : session.Aligned codec sent got)
    (matched : exchange.Matched codec entries) (isSent : sent = lengthPrefix.frame exchange.payload)
    (isGot : got = lengthPrefix.frame exchange.response) : (session.settle exchange).Aligned codec [] [] := by
  constructor
  · intro other member
    rcases List.mem_append.mp member with old | new
    · exact aligned.matched other old
    · rw [List.mem_singleton.mp new]
      exact ⟨entries, matched⟩
  · change session.written = lengthPrefix.frames ((session.exchanges ++ [exchange]).map _) ++ []
    rw [aligned.written, isSent, List.map_append, LengthPrefix.frames_append, List.map_singleton,
      LengthPrefix.frames_singleton, List.append_nil]
  · change session.taken = lengthPrefix.frames ((session.exchanges ++ [exchange]).map _) ++ []
    rw [aligned.taken, isGot, List.map_append, LengthPrefix.frames_append, List.map_singleton,
      LengthPrefix.frames_singleton, List.append_nil]

theorem Aligned.in_step (aligned : session.Aligned codec sent got) (exchanges : next.exchanges = session.exchanges)
    (written : next.written = session.written) (taken : next.taken = session.taken)
    (tail : next.Tail codec sent got) : next.InStep codec := by
  refine ⟨sent, got, ⟨exchanges ▸ aligned.matched, ?_, ?_⟩, tail⟩
  · rw [written, exchanges, aligned.written]
  · rw [taken, exchanges, aligned.taken]

theorem Aligned.conclude (aligned : session.Aligned codec [] []) (request : Request) (id : UInt64)
    (verdict : Verdict) : (session.conclude request id verdict).InStep codec := by
  cases verdict with
  | fatal why =>
    unfold Session.conclude abandon
    dsimp only
    split
    · exact aligned.in_step rfl rfl rfl (.of_some rfl (by rintro _ _ _ _ ⟨⟩))
    · exact aligned.in_step rfl rfl rfl (.of_some rfl (by rintro _ _ _ _ ⟨⟩))
  | reply reply =>
    unfold Session.conclude
    dsimp only
    split
    · exact aligned.in_step rfl rfl rfl (.of_some rfl (by rintro _ _ _ _ ⟨⟩))
    · exact aligned.in_step rfl rfl rfl (.of_none rfl fun _ => ⟨rfl, rfl⟩)

theorem in_step_effect (effect : Effect codec session next)
    (inStep : session.InStep codec) (flagged : session.Flagged) : next.InStep codec := by
  obtain ⟨sent, got, aligned, tail⟩ := inStep
  -- behind a future that ends without an exchange no request will follow
  have spent {future : Future} (resting : session.future = some future) (last : Session)
      (worker : last.worker = session.worker) (consumed : last.consumed = session.consumed)
      (none : last.future = none) : last.Tail codec sent got := by
    refine .of_none none fun ready => ?_
    have ended := flagged.ended resting
    rw [← worker, ← consumed, ready.alive, ready.quiet, ready.kept] at ended
    simp at ended
  cases effect with
  | arrive | refuse =>
    exact aligned.in_step rfl rfl rfl (tail.same rfl rfl rfl rfl)
  | accept request payload worker consumed ready encoded claims =>
    obtain ⟨rfl, rfl⟩ := tail.ready ready
    exact aligned.in_step rfl rfl rfl ⟨encoded, List.nil_append _, rfl⟩
  | consume idle =>
    exact aligned.in_step rfl rfl rfl (.of_none idle fun ready => by cases ready.kept)
  | close nextId idle => exact aligned.in_step rfl rfl rfl (.of_some rfl (by rintro _ _ _ _ ⟨⟩))
  | strand request why idle inFlight =>
    exact aligned.in_step rfl rfl rfl (.of_some rfl (by rintro _ _ _ _ ⟨⟩))
  | progress id request payload stage next unread wrote drew at_stage holds =>
    obtain ⟨encoded, held⟩ := tail.at_cycle at_stage
    refine ⟨sent ++ wrote, got ++ drew, ⟨aligned.matched, ?_, ?_⟩, encoded, holds _ _ held⟩
    · change session.written ++ wrote = _
      rw [aligned.written, List.append_assoc]
      rfl
    · exact (aligned.draw unread drew).taken
  | poison id request payload stage why unread drew at_stage =>
    exact (aligned.draw unread drew).in_step rfl rfl rfl (.of_some rfl (by rintro _ _ _ _ ⟨⟩))
  | giveUp id request payload stage unread drew at_stage unload =>
    exact (aligned.draw unread drew).in_step rfl rfl rfl (.of_some rfl (by rintro _ _ _ _ ⟨⟩))
  | settle id request payload response stage entries verdict unread drew at_stage holds decoded
      sameId judged =>
      obtain ⟨encoded, held⟩ := tail.at_cycle at_stage
      obtain ⟨isSent, isGot⟩ := holds _ _ held
      exact ((aligned.draw unread drew).settle ⟨encoded, decoded, sameId⟩ isSent isGot).conclude
        request id verdict
  | dropCycle id request payload stage at_stage =>
    exact aligned.in_step rfl rfl rfl (spent at_stage _ rfl rfl rfl)
  | dropOther future resting other =>
    exact aligned.in_step rfl rfl rfl (spent resting _ rfl rfl rfl)
  | exitFails id exiting =>
    exact aligned.in_step rfl rfl rfl (.of_some rfl (by rintro _ _ _ _ ⟨⟩))
  | exited id exiting => exact aligned.in_step rfl rfl rfl (spent exiting _ rfl rfl rfl)
  | reaped request reply empty gone =>
    rcases gone with ⟨_, _, resting⟩ | resting
    · exact aligned.in_step rfl rfl rfl (spent resting _ rfl rfl rfl)
    · exact aligned.in_step rfl rfl rfl (spent resting _ rfl rfl rfl)

end Session

/-- A request dropped in flight, or a fatal error. -/
def Entry.Spoils : Entry → Prop
  | .dropped _ | .poisoned _ => True
  | .accepted _ _ | .returned _ _ => False

/-- A request goes onto the stream, or comes back with what a frame said. -/
def Entry.Serves : Entry → Prop
  | .accepted _ _ => True
  | .returned _ reply => ¬reply.Empty
  | .dropped _ | .poisoned _ => False

namespace Session

/-- Behind an entry that spoils the worker none is served. -/
def Silent (log : List Entry) : Prop :=
  ∀ before spoil after, log = before ++ spoil :: after → spoil.Spoils →
    ∀ entry ∈ after, ¬entry.Serves

/-- No request is on the stream, and none will be. -/
def Spoiled (session : Session) : Prop :=
  (session.worker.dead = true ∨ session.worker.inFlight = true ∨ session.consumed = true) ∧
    ((∃ request why, session.future = some (.reaping request why)) ∨
      session.future = some .killing ∨ session.future = none)

structure Hushed (session : Session) : Prop where
  silent : Silent session.log
  spoiled : (∃ entry ∈ session.log, entry.Spoils) → session.Spoiled

theorem silent_append {log : List Entry} {entry : Entry} (silent : Silent log)
    (unspoiled : entry.Serves → ∀ earlier ∈ log, ¬earlier.Spoils) : Silent (log ++ [entry]) := by
  intro before spoil after split spoils other member serves
  rcases List.eq_nil_or_concat after with rfl | ⟨others, last, rfl⟩
  · cases member
  rw [List.concat_eq_append, ← List.cons_append, ← List.append_assoc] at split
  obtain ⟨logged, lasts⟩ := List.append_inj' split rfl
  rcases List.mem_append.mp (List.concat_eq_append ▸ member) with earlier | isLast
  · exact silent before spoil others logged spoils other earlier serves
  · rw [List.mem_singleton.mp isLast, ← List.singleton_inj.mp lasts] at serves
    exact unspoiled serves spoil (by rw [logged]; simp) spoils

theorem Hushed.unspoiled (hushed : session.Hushed) (fine : ¬session.Spoiled) :
    ∀ entry ∈ session.log, ¬entry.Spoils :=
  fun entry member spoils => fine (hushed.spoiled ⟨entry, member, spoils⟩)

variable {next : Session}

theorem Hushed.keep (hushed : session.Hushed) (logged : next.log = session.log)
    (spoiled : session.Spoiled → next.Spoiled) : next.Hushed := by
  refine ⟨logged ▸ hushed.silent, fun found => spoiled (hushed.spoiled ?_)⟩
  rwa [logged] at found

theorem Hushed.spoil (hushed : session.Hushed) (entry : Entry)
    (logged : next.log = session.log ++ [entry]) (unserved : ¬entry.Serves)
    (spoiled : next.Spoiled) : next.Hushed := by
  refine ⟨?_, fun _ => spoiled⟩
  rw [logged]
  exact silent_append hushed.silent fun serves => (unserved serves).elim

theorem Hushed.append (hushed : session.Hushed) (entry : Entry)
    (logged : next.log = session.log ++ [entry]) (fine : ¬entry.Spoils)
    (unspoiled : entry.Serves → ¬session.Spoiled) (spoiled : session.Spoiled → next.Spoiled) : next.Hushed := by
  constructor
  · rw [logged]
    exact silent_append hushed.silent fun serves => hushed.unspoiled (unspoiled serves)
  · rintro ⟨other, member, spoils⟩
    rw [logged] at member
    rcases List.mem_append.mp member with old | new
    · exact spoiled (hushed.spoiled ⟨other, old, spoils⟩)
    · rw [List.mem_singleton.mp new] at spoils
      exact (fine spoils).elim

theorem Ready.not_spoiled (ready : session.Ready) : ¬session.Spoiled := by
  rintro ⟨flag, -⟩
  rw [ready.alive, ready.quiet, ready.kept] at flag
  simp at flag

variable {stage : Stage}

theorem not_spoiled_of_cycle {payload : List UInt8}
    (resting : session.future = some (.cycle id request payload stage)) :
    ¬session.Spoiled := by
  rintro ⟨-, future⟩
  rw [resting] at future
  simp at future

theorem not_spoiled_of_exiting (resting : session.future = some (.exiting id)) : ¬session.Spoiled := by
  rintro ⟨-, future⟩
  rw [resting] at future
  simp at future

theorem fatal_spoiled (request : Request) (why : Fatality) : (session.fatal request why).Spoiled :=
  ⟨.inl rfl, .inl ⟨request, why, rfl⟩⟩

theorem spoiled_effect (effect : Effect codec session next)
    (spoiled : session.Spoiled) : next.Spoiled ∧ next.written = session.written := by
  cases effect with
  | arrive | refuse => exact ⟨spoiled, rfl⟩
  | accept request payload worker consumed ready encoded claims =>
    exact (ready.not_spoiled spoiled).elim
  | consume idle => exact ⟨⟨.inr (.inr rfl), .inr (.inr idle)⟩, rfl⟩
  | close nextId idle => exact ⟨⟨.inr (.inr rfl), .inr (.inl rfl)⟩, rfl⟩
  | strand request why idle inFlight => exact ⟨fatal_spoiled request why, rfl⟩
  | progress id request payload stage next unread wrote drew at_stage holds =>
    exact (not_spoiled_of_cycle at_stage spoiled).elim
  | poison id request payload stage why unread drew at_stage =>
    exact (not_spoiled_of_cycle at_stage spoiled).elim
  | giveUp id request payload stage unread drew at_stage unload =>
    exact (not_spoiled_of_cycle at_stage spoiled).elim
  | settle id request payload response stage entries verdict unread drew at_stage holds decoded
      sameId judged => exact (not_spoiled_of_cycle at_stage spoiled).elim
  | dropCycle id request payload stage at_stage =>
    exact (not_spoiled_of_cycle at_stage spoiled).elim
  | dropOther future resting other => exact ⟨⟨spoiled.1, .inr (.inr rfl)⟩, rfl⟩
  | exitFails id exiting => exact (not_spoiled_of_exiting exiting spoiled).elim
  | exited id exiting => exact (not_spoiled_of_exiting exiting spoiled).elim
  | reaped request reply empty gone => exact ⟨⟨spoiled.1, .inr (.inr rfl)⟩, rfl⟩

theorem spoiled_written (events : List Event) (spoiled : session.Spoiled) :
    (events.foldl (Session.step codec) session).written = session.written := by
  induction events generalizing session with
  | nil => rfl
  | cons event rest ih =>
    obtain ⟨stays, same⟩ := spoiled_effect (@step_effect codec session event) spoiled
    exact (ih stays).trans same

theorem Hushed.conclude (hushed : session.Hushed) (fine : ∀ entry ∈ session.log, ¬entry.Spoils)
    (request : Request) (id : UInt64) (verdict : Verdict) : (session.conclude request id verdict).Hushed := by
  have keep (next : Session) (logged : next.log = session.log) : next.Hushed := by
    refine ⟨logged ▸ hushed.silent, fun ⟨entry, member, spoils⟩ => ?_⟩
    exact (fine entry (logged ▸ member) spoils).elim
  cases verdict with
  | fatal why =>
    unfold Session.conclude abandon
    dsimp only
    split
    · exact keep _ rfl
    · exact hushed.spoil (.poisoned why) rfl (fun serves => serves) (fatal_spoiled request why)
  | reply reply =>
    unfold Session.conclude
    dsimp only
    split
    · exact keep _ rfl
    · refine ⟨silent_append hushed.silent fun _ => fine, ?_⟩
      rintro ⟨entry, member, spoils⟩
      rcases List.mem_append.mp member with old | new
      · exact (fine entry old spoils).elim
      · cases List.mem_singleton.mp new
        exact spoils.elim

theorem hushed_effect (effect : Effect codec session next)
    (hushed : session.Hushed) (flagged : session.Flagged) : next.Hushed := by
  cases effect with
  | arrive unread => exact hushed.keep rfl fun spoiled => spoiled
  | refuse request reply nextId idle empty =>
    exact hushed.append _ rfl (fun spoils => spoils) (fun serves => (serves empty).elim)
      fun spoiled => spoiled
  | accept request payload worker consumed ready encoded claims =>
    exact hushed.append _ rfl (fun spoils => spoils) (fun _ => ready.not_spoiled)
      fun spoiled => (ready.not_spoiled spoiled).elim
  | consume idle => exact hushed.keep rfl fun _ => ⟨.inr (.inr rfl), .inr (.inr idle)⟩
  | close nextId idle => exact hushed.keep rfl fun _ => ⟨.inr (.inr rfl), .inr (.inl rfl)⟩
  | strand request why idle inFlight =>
    exact hushed.spoil _ rfl (fun serves => serves) (fatal_spoiled request why)
  | progress id request payload stage next unread wrote drew at_stage holds =>
    exact hushed.keep rfl fun spoiled => (not_spoiled_of_cycle at_stage spoiled).elim
  | poison id request payload stage why unread drew at_stage =>
    exact hushed.spoil _ rfl (fun serves => serves) (fatal_spoiled request why)
  | giveUp id request payload stage unread drew at_stage unload =>
    exact hushed.keep rfl fun spoiled => (not_spoiled_of_cycle at_stage spoiled).elim
  | settle id request payload response stage entries verdict unread drew at_stage holds decoded
      sameId judged =>
      have fine := hushed.unspoiled (not_spoiled_of_cycle at_stage)
      have settled : ((session.draw unread drew).settle ⟨id, request, payload, response⟩).Hushed :=
        ⟨hushed.silent, fun ⟨entry, member, spoils⟩ => (fine entry member spoils).elim⟩
      exact settled.conclude fine request id verdict
  | dropCycle id request payload stage at_stage =>
    exact hushed.spoil _ rfl (fun serves => serves)
      ⟨flagged.ended at_stage, .inr (.inr rfl)⟩
  | dropOther future resting other =>
    exact hushed.keep rfl fun spoiled => ⟨spoiled.1, .inr (.inr rfl)⟩
  | exitFails id exiting =>
    exact hushed.keep rfl fun spoiled => (not_spoiled_of_exiting exiting spoiled).elim
  | exited id exiting =>
    exact hushed.append _ rfl (fun spoils => spoils)
      (fun _ => not_spoiled_of_exiting exiting) fun spoiled => ⟨spoiled.1, .inr (.inr rfl)⟩
  | reaped request reply empty gone =>
    exact hushed.append _ rfl (fun spoils => spoils) (fun serves => (serves empty).elim)
      fun spoiled => ⟨spoiled.1, .inr (.inr rfl)⟩

structure Kept (codec : Codec) (session : Session) : Prop where
  corresponds : session.Corresponds codec
  inStep : session.InStep codec
  flagged : session.Flagged
  hushed : session.Hushed

theorem kept_step (kept : session.Kept codec) (event : Event) : (session.step codec event).Kept codec :=
  have effect := step_effect event
  ⟨corresponds_effect effect kept.corresponds fun _ _ _ _ at_stage =>
      InStep.matched_cycle kept.inStep at_stage,
    in_step_effect effect kept.inStep kept.flagged, flagged_effect effect kept.flagged,
    hushed_effect effect kept.hushed kept.flagged⟩

theorem kept_init : (workerMachine codec).init.Kept codec where
  corresponds := ⟨nofun, (by rintro _ ⟨⟩)⟩
  inStep := ⟨[], [], ⟨nofun, rfl, rfl⟩, fun _ => ⟨rfl, rfl⟩⟩
  flagged := .of_none rfl
  hushed := ⟨fun before spoil after equal => by simp [workerMachine] at equal, by
    rintro ⟨_, ⟨⟩, _⟩⟩

theorem run_kept (events : List Event) : ((workerMachine codec).run events).Kept codec :=
  (workerMachine codec).run_invariant (Session.Kept codec) (fun _ _ => True) kept_init
    (fun _ event _ kept => kept_step kept event) events
    ((workerMachine codec).admitted_run_of_forall fun _ _ => trivial)

/-- A request that encodes, and a child that answers it. -/
structure Served (codec : Codec) (session : Session) (request : Request) (payload response : List UInt8)
    (reply : Reply) : Prop where
  encoded : encodeFrame codec (request.frame session.worker.nextId) = .ok payload
  fits : response.length ≤ maxFrameBytes
  answered : ∃ entries, codec.readValue response = .ok (.map entries) ∧
    responseId entries = some session.worker.nextId ∧
    request.judge codec session.worker.nextId entries = .completes (.reply reply)

/-- The events of an exchange that nothing disturbs. -/
def exchangeEvents (request : Request) (payload response : List UInt8) : List Event :=
  [.request request, .write (lengthPrefix.frame payload).length, .flush,
    .arrive (lengthPrefix.frame response), .read lengthPrefix.width, .read response.length]

/-- The session an undisturbed exchange leaves. -/
def exchanged (session : Session) (request : Request) (payload response : List UInt8)
    (reply : Reply) : Session :=
  { session with
    worker := ⟨session.worker.nextId + 1, false, session.worker.dead⟩
    future := none
    written := session.written ++ lengthPrefix.frame payload
    unread := []
    taken := session.taken ++ lengthPrefix.frame response
    exchanges := session.exchanges ++ [⟨session.worker.nextId, request, payload, response⟩]
    log := session.log ++
      [.accepted session.worker.nextId request, .returned request reply] }

theorem step_request (ready : session.Ready) (plain : ¬request.IsUnload) :
    session.step codec (.request request) = session.roundtrip codec request := by
  have kept : ¬session.consumed = true := by rw [ready.kept]; decide
  simp only [step, ready.idle, stepIdle, begin, if_neg kept, if_neg plain]

theorem request_sends (ready : session.Ready) (plain : ¬request.IsUnload)
    {payload : List UInt8} (encoded : encodeFrame codec (request.frame session.worker.nextId) = .ok payload) :
    session.step codec (.request request) =
      (session.takeId.setInFlight true).send session.worker.nextId request payload := by
  have alive : ¬session.worker.dead = true := by rw [ready.alive]; decide
  have quiet : ¬session.worker.inFlight = true := by rw [ready.quiet]; decide
  rw [step_request ready plain]
  simp only [roundtrip, if_neg alive, if_neg quiet, encoded]

theorem request_refused (ready : session.Ready) (plain : ¬request.IsUnload) {fault : EncodeFault}
    (unencodable : encodeFrame codec (request.frame session.worker.nextId) = .error fault) :
    session.step codec (.request request) =
      session.takeId.note (.returned request (.refused fault)) := by
  have alive : ¬session.worker.dead = true := by rw [ready.alive]; decide
  have quiet : ¬session.worker.inFlight = true := by rw [ready.quiet]; decide
  rw [step_request ready plain]
  simp only [roundtrip, if_neg alive, if_neg quiet, unencodable]

section Exchange

variable {id : UInt64} {request : Request} {payload : List UInt8}

theorem step_cycle {event : Event} (at_stage : session.future = some (.cycle id request payload stage))
    (acts : ∀ bytes, event ≠ .arrive bytes) :
    session.step codec event = session.stepCycle codec id request payload stage event := by
  cases event with
  | arrive bytes => exact (acts bytes rfl).elim
  | _ => simp only [step, at_stage, stepFuture]

theorem write_all {left : List UInt8}
    (at_stage : session.future = some (.cycle id request payload (.writing left))) :
    session.step codec (.write left.length) =
      { session with written := session.written ++ left }.await
        (.cycle id request payload .flushing) := by
  rw [step_cycle at_stage (by rintro _ ⟨⟩)]
  change session.writeSome id request payload left left.length = _
  simp only [writeSome, List.drop_length, List.take_length, if_true]

theorem flush_all (at_stage : session.future = some (.cycle id request payload .flushing)) :
    session.step codec .flush = session.await (.cycle id request payload (.readingHeader [])) := by
  rw [step_cycle at_stage (by rintro _ ⟨⟩)]
  rfl

theorem step_read (count : Nat) (at_stage : session.future = some (.cycle id request payload stage)) :
    session.step codec (.read count) = session.readSome codec id request payload count stage :=
  step_cycle at_stage (by rintro _ ⟨⟩)

variable {response : List UInt8}

theorem read_header (at_stage : session.future = some (.cycle id request payload (.readingHeader [])))
    (arrived : session.unread = lengthPrefix.frame response) (fits : response.length ≤ maxFrameBytes) :
    session.step codec (.read lengthPrefix.width) =
      (session.draw response (lengthPrefix.write response.length)).payloadRead codec id request
        payload response.length [] := by
  have width := lengthPrefix.width_write response.length
  have length : lengthPrefix.read (lengthPrefix.write response.length) = response.length := by
    refine lengthPrefix.read_write _ (Nat.lt_of_le_of_lt fits ?_)
    decide
  have rest : (lengthPrefix.frame response).drop lengthPrefix.width = response := by
    rw [LengthPrefix.frame, List.drop_left' width]
  have first : (lengthPrefix.frame response).take lengthPrefix.width =
      lengthPrefix.write response.length := by
    rw [LengthPrefix.frame, List.take_left' width]
  rw [step_read _ at_stage]
  simp only [readSome, List.length_nil, Nat.sub_zero, Nat.min_self, take, arrived, rest, first,
    List.nil_append, headerRead, width, if_true, length,
    if_neg (Nat.not_lt.mpr fits)]
  rfl

theorem read_payload
    (at_stage : session.future =
      some (.cycle id request payload (.readingPayload response.length [])))
    (arrived : session.unread = response) : session.step codec (.read response.length) =
      (session.draw [] response).complete codec id request payload response := by
  rw [step_read _ at_stage]
  simp only [readSome, List.length_nil, Nat.sub_zero, Nat.min_self, take, arrived, List.drop_length,
    List.take_length, List.nil_append, payloadRead,
    if_true]
  rfl

theorem complete_answered (plain : ¬request.IsUnload) {reply : Reply}
    {entries : List (Value × Value)} (decoded : codec.readValue response = .ok (.map entries))
    (sameId : responseId entries = some id) (judged : request.judge codec id entries = .completes (.reply reply)) :
    session.complete codec id request payload response =
      (session.settle ⟨id, request, payload, response⟩).finish request reply := by
  simp only [complete, decoded, sameId, ne_eq, not_true_eq_false, if_false, judged,
    Session.conclude, if_neg plain]

end Exchange

theorem read_response {payload response : List UInt8}
    (arrived : session.unread = response) (plain : ¬request.IsUnload) {reply : Reply}
    {entries : List (Value × Value)} (decoded : codec.readValue response = .ok (.map entries))
    (sameId : responseId entries = some id) (judged : request.judge codec id entries = .completes (.reply reply)) :
    (session.payloadRead codec id request payload response.length []).step codec
        (.read response.length) =
      ((session.draw [] response).settle ⟨id, request, payload, response⟩).finish request reply := by
  by_cases empty : response = []
  · subst empty
    rw [payloadRead, if_pos rfl, complete_answered plain decoded sameId judged]
    have drawn : session.draw [] [] = session := by
      have same := draw_nil session
      rwa [arrived] at same
    rw [drawn]
    rfl
  · have unfinished : ¬([] : List UInt8).length = response.length := fun none =>
      empty (List.eq_nil_of_length_eq_zero none.symm)
    have last := @read_payload codec
      (session.await (.cycle id request payload (.readingPayload response.length [])))
      id request payload response rfl arrived
    rw [payloadRead, if_neg unfinished, last, complete_answered plain decoded sameId judged]
    rfl

theorem exchange_completes (ready : session.Ready) (drained : session.unread = []) (plain : ¬request.IsUnload)
    {payload response : List UInt8} {reply : Reply}
    (served : session.Served codec request payload response reply) :
    (exchangeEvents request payload response).foldl (Session.step codec) session =
      session.exchanged request payload response reply := by
  obtain ⟨entries, decoded, sameId, judged⟩ := served.answered
  let sending := (session.takeId.setInFlight true).send session.worker.nextId request payload
  have sends : session.step codec (.request request) = sending :=
    request_sends ready plain served.encoded
  let flushing := { sending with written := sending.written ++ lengthPrefix.frame payload }.await
    (.cycle session.worker.nextId request payload .flushing)
  have writes : sending.step codec (.write (lengthPrefix.frame payload).length) = flushing :=
    write_all rfl
  let reading := flushing.await (.cycle session.worker.nextId request payload (.readingHeader []))
  have flushes : flushing.step codec .flush = reading := flush_all rfl
  let answered := { reading with unread := lengthPrefix.frame response }
  have arrives : reading.step codec (.arrive (lengthPrefix.frame response)) = answered := by
    have empty : reading.unread = [] := drained
    change { reading with unread := reading.unread ++ _ } = _
    rw [empty, List.nil_append]
  have heads : answered.step codec (.read lengthPrefix.width) = _ :=
    @read_header codec answered session.worker.nextId request payload response rfl rfl served.fits
  have reads := @read_response codec
    (answered.draw response (lengthPrefix.write response.length)) session.worker.nextId request
    payload response rfl plain reply entries decoded sameId judged
  simp only [exchangeEvents, List.foldl_cons, List.foldl_nil]
  rw [sends, writes, flushes, arrives, heads, reads]
  have taken : answered.taken ++ lengthPrefix.write response.length ++ response =
      session.taken ++ lengthPrefix.frame response := List.append_assoc _ _ _
  have logged : session.log ++ [Entry.accepted session.worker.nextId request] ++
      [.returned request reply] = session.log ++
        [.accepted session.worker.nextId request, .returned request reply] :=
    List.append_assoc _ _ _
  unfold exchanged
  rw [← taken, ← logged]
  rfl

/-- A request that did not encode leaves a worker that serves the next one: no byte
was sent or read, the streams hold whole exchanges, and the next request that its
child answers gets the answer. -/
structure Serviceable (codec : Codec) (session after : Session) : Prop where
  ready : after.Ready
  aligned : after.Aligned codec [] []
  written : after.written = session.written
  unread : after.unread = session.unread
  taken : after.taken = session.taken
  exchanges : after.exchanges = session.exchanges
  serves : ∀ request payload response reply, ¬request.IsUnload → after.unread = [] →
    after.Served codec request payload response reply →
      (exchangeEvents request payload response).foldl (Session.step codec) after =
        after.exchanged request payload response reply

theorem refused_serviceable (kept : session.Kept codec) (ready : session.Ready)
    (plain : ¬request.IsUnload) {fault : EncodeFault}
    (unencodable : encodeFrame codec (request.frame session.worker.nextId) = .error fault) :
    session.Serviceable codec (session.step codec (.request request)) := by
  have refused := request_refused ready plain unencodable
  have stays : (session.step codec (.request request)).Ready := by
    rw [refused]
    exact ⟨ready.idle, ready.kept, ready.alive, ready.quiet⟩
  refine ⟨stays, InStep.ready (kept_step kept _).inStep stays, ?_, ?_, ?_, ?_, ?_⟩
  · rw [refused]; rfl
  · rw [refused]; rfl
  · rw [refused]; rfl
  · rw [refused]; rfl
  · intro next payload response reply plain drained served
    exact exchange_completes stays drained plain served

/-- What a session keeps of the correspondence of requests and responses. -/
structure RoundTripsKept (codec : Codec) (session : Session) : Prop where
  returned : ∀ request reply, Entry.returned request reply ∈ session.log →
    reply.Corresponds codec session.exchanges request
  streams : ∃ sent got, session.Aligned codec sent got
  silent : Silent session.log
  spoiled : (∃ entry ∈ session.log, entry.Spoils) → ∀ events : List Event,
    (events.foldl (Session.step codec) session).written = session.written
  serviceable : ∀ request fault, session.Ready → ¬request.IsUnload →
    encodeFrame codec (request.frame session.worker.nextId) = .error fault →
      session.Serviceable codec (session.step codec (.request request))

end Session

/-- Whatever requests, frames, timeouts and dropped futures a worker meets. -/
theorem run_round_trips_kept (codec : Codec) (events : List Event) :
    Session.RoundTripsKept codec ((workerMachine codec).run events) := by
  have kept := @Session.run_kept codec events
  obtain ⟨sent, got, aligned, -⟩ := kept.inStep
  exact
    { returned := kept.corresponds.returned
      streams := ⟨sent, got, aligned⟩
      silent := kept.hushed.silent
      spoiled := fun found events => Session.spoiled_written events (kept.hushed.spoiled found)
      serviceable := fun request fault ready plain unencodable =>
        Session.refused_serviceable kept ready plain unencodable }

end Panoptikon.Inferio
