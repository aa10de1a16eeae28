import Panoptikon.Transcode.Pool

/-!
# Where each transcode job is

Each id that was given out is queued, with its task, set aside by a handler, or
settled by one terminal event. One lemma for each thing a handler does to a job.
-/

namespace Panoptikon.Transcode

open Foundation

variable {Work Artifact : Type}

/-- The jobs that were published as finished. -/
def settledIds (log : List (PoolEntry Work Artifact)) : List Nat :=
  log.filterMap fun entry =>
    match entry with
    | .published id event => if event.isTerminal then some id else none
    | _ => none

@[simp] theorem settled_ids_append (first last : List (PoolEntry Work Artifact)) :
    settledIds (first ++ last) = settledIds first ++ settledIds last := List.filterMap_append

@[simp] theorem started_ids_append (first last : List (PoolEntry Work Artifact)) :
    startedIds (first ++ last) = startedIds first ++ startedIds last := List.filterMap_append

theorem settled_published (id : Nat) (event : TranscodeJobEvent Artifact) :
    settledIds [(.published id event : PoolEntry Work Artifact)] =
      if event.isTerminal then [id] else [] := by
  cases ends : event.isTerminal <;> simp [settledIds, ends]

/-- Nothing is published of a job that is settled. -/
def Final (log : List (PoolEntry Work Artifact)) : Prop :=
  ∀ before id event after, log = before ++ .published id event :: after → id ∉ settledIds before

theorem Final.snoc {log : List (PoolEntry Work Artifact)} {entry : PoolEntry Work Artifact}
    (final : Final log) (open_ : ∀ id event, entry = .published id event → id ∉ settledIds log) :
    Final (log ++ [entry]) := by
  intro before id event after split
  rcases List.eq_nil_or_concat after with rfl | ⟨more, last, rfl⟩
  · obtain ⟨rfl, same⟩ := List.append_inj' split rfl
    exact open_ id event (List.singleton_inj.mp same)
  · rw [List.concat_eq_append, ← List.cons_append, ← List.append_assoc] at split
    obtain ⟨isLog, -⟩ := List.append_inj' split rfl
    exact final before id event more isLog

namespace PoolState

variable {state next : PoolState Work Artifact} {aside : List Nat} {id : Nat}

def Live (aside : List Nat) (state : PoolState Work Artifact) (id : Nat) : Prop :=
  id ∈ state.queued ∨ id ∈ state.tasks ∨ id ∈ aside

structure Sound (aside : List Nat) (state : PoolState Work Artifact) : Prop where
  counted : ∀ id, state.queued.count id + state.tasks.count id + aside.count id +
    (settledIds state.log).count id = if id < state.nextId then 1 else 0
  live : ∀ id, state.Live aside id → ∃ entry, state.jobs.lookup id = some entry ∧
    entry.event.isTerminal = false
  waiting : ∀ id ∈ state.queued, ∃ entry work, state.jobs.lookup id = some entry ∧
    entry.pending = some work
  settled : ∀ id entry, state.jobs.lookup id = some entry → id ∈ settledIds state.log →
    entry.event.isTerminal = true
  known : ∀ id entry, state.jobs.lookup id = some entry → id < state.nextId
  retired : ∀ pair ∈ state.terminal, pair.1 ∈ settledIds state.log
  keys : ∀ key id, state.byKey.lookup key = some id → state.Live aside id ∧
    ∃ entry, state.jobs.lookup id = some entry ∧ entry.key = key ∧
      (entry.cancel = false ∨ state.shuttingDown = true)
  final : Final state.log
  order : (startedIds state.log ++ state.queued).Pairwise (· < ·)
  begun : ∀ id ∈ state.tasks, id ∈ startedIds state.log
  bound : ∀ id ∈ startedIds state.log, id < state.nextId
  passed : ∀ id < state.nextId, id ∈ startedIds state.log ∨ id ∈ state.queued ∨ id ∈ aside ∨
    ∃ reason, .withdrawn id reason ∈ state.log
  flagged : ∀ id, .flagged id ∈ state.log → id < state.nextId ∧
    ∀ key, state.byKey.lookup key ≠ some id

theorem Sound.open_of_live (sound : state.Sound aside) (live : state.Live aside id) :
    id ∉ settledIds state.log := by
  intro isSettled
  have counted := sound.counted id
  have once : 0 < (settledIds state.log).count id := List.count_pos_iff.mpr isSettled
  rcases live with queued | running | isAside
  · have more : 0 < state.queued.count id := List.count_pos_iff.mpr queued
    split at counted <;> omega
  · have more : 0 < state.tasks.count id := List.count_pos_iff.mpr running
    split at counted <;> omega
  · have more : 0 < aside.count id := List.count_pos_iff.mpr isAside
    split at counted <;> omega

theorem Sound.live_lt (sound : state.Sound aside) (live : state.Live aside id) : id < state.nextId := by
  obtain ⟨entry, found, -⟩ := sound.live id live
  exact sound.known id entry found

variable {entry : JobEntry Work Artifact}

section

variable (sound : state.Sound aside)

include sound

theorem Sound.live_of_open (found : state.jobs.lookup id = some entry) (isOpen : entry.event.isTerminal = false) :
    state.Live aside id := by
  have notSettled : id ∉ settledIds state.log := fun settled => by
    rw [sound.settled id entry found settled] at isOpen
    cases isOpen
  have counted := sound.counted id
  rw [if_pos (sound.known id entry found), List.count_eq_zero.mpr notSettled] at counted
  by_cases queued : id ∈ state.queued
  · exact .inl queued
  · by_cases running : id ∈ state.tasks
    · exact .inr (.inl running)
    · rw [List.count_eq_zero.mpr queued, List.count_eq_zero.mpr running] at counted
      exact .inr (.inr (List.count_pos_iff.mp (by omega)))

theorem Sound.note {entry : PoolEntry Work Artifact}
    (noneSettled : settledIds [entry] = []) (noneStarted : startedIds [entry] = [])
    (open_ : ∀ id event, entry = .published id event → id ∉ settledIds state.log)
    (unheld : ∀ id, entry = .flagged id → id < state.nextId ∧ ∀ key, state.byKey.lookup key ≠ some id) :
    (state.note entry).Sound aside := by
  have settled : settledIds (state.note entry).log = settledIds state.log := by
    change settledIds (state.log ++ [entry]) = _
    rw [settled_ids_append, noneSettled, List.append_nil]
  have started : startedIds (state.note entry).log = startedIds state.log := by
    change startedIds (state.log ++ [entry]) = _
    rw [started_ids_append, noneStarted, List.append_nil]
  refine ⟨?_, sound.live, sound.waiting, ?_, sound.known, ?_, sound.keys, sound.final.snoc open_, ?_, ?_,
    ?_, fun id less => ?_, fun id member => ?_⟩
  · rw [settled]
    exact sound.counted
  · rw [settled]
    exact sound.settled
  · rw [settled]
    exact sound.retired
  · rw [started]
    exact sound.order
  · rw [started]
    exact sound.begun
  · rw [started]
    exact sound.bound
  · rw [started]
    rcases sound.passed id less with isStarted | queued | isAside | ⟨reason, member⟩
    · exact .inl isStarted
    · exact .inr (.inl queued)
    · exact .inr (.inr (.inl isAside))
    · exact .inr (.inr (.inr ⟨reason, List.mem_append_left _ member⟩))
  · rcases List.mem_append.mp member with old | new
    · exact sound.flagged id old
    · exact unheld id (List.mem_singleton.mp new).symm

theorem Sound.put (changed : JobEntry Work Artifact) (live : state.Live aside id)
    (found : state.jobs.lookup id = some entry)
    (key : changed.key = entry.key) (open_ : changed.event.isTerminal = false)
    (pending : id ∈ state.queued → changed.pending = entry.pending)
    (cancel : state.byKey.lookup entry.key = some id → changed.cancel = entry.cancel) :
    Sound aside { state with jobs := state.jobs.insert id changed } := by
  refine ⟨sound.counted, fun other isLive => ?_, fun other queued => ?_, fun other found_ => ?_,
    fun other found_ => ?_, sound.retired, fun key_ other isKey => ?_, sound.final, sound.order,
    sound.begun, sound.bound, sound.passed, sound.flagged⟩
  · change ∃ entry_, (state.jobs.insert id changed).lookup other = some entry_ ∧ _
    rw [KeyedMap.lookup_insert_eq]
    split
    · exact ⟨changed, rfl, open_⟩
    · exact sound.live other isLive
  · change ∃ entry_ work, (state.jobs.insert id changed).lookup other = some entry_ ∧ _
    rw [KeyedMap.lookup_insert_eq]
    obtain ⟨before, work, isBefore, isPending⟩ := sound.waiting other queued
    split
    · rename_i same
      subst same
      rw [found] at isBefore
      cases isBefore
      exact ⟨changed, work, rfl, (pending queued).trans isPending⟩
    · exact ⟨before, work, isBefore, isPending⟩
  · change (state.jobs.insert id changed).lookup other = some found_ → _
    rw [KeyedMap.lookup_insert_eq]
    split
    · rename_i same
      subst same
      exact fun _ isSettled => absurd isSettled (sound.open_of_live live)
    · exact sound.settled other found_
  · change (state.jobs.insert id changed).lookup other = some found_ → _
    rw [KeyedMap.lookup_insert_eq]
    split
    · rename_i same
      subst same
      exact fun _ => sound.known other entry found
    · exact sound.known other found_
  · obtain ⟨isLive, before, isBefore, sameKey, fresh⟩ := sound.keys key_ other isKey
    refine ⟨isLive, ?_⟩
    change ∃ entry_, (state.jobs.insert id changed).lookup other = some entry_ ∧ _
    rw [KeyedMap.lookup_insert_eq]
    split
    · rename_i same
      subst same
      rw [found] at isBefore
      cases isBefore
      refine ⟨changed, rfl, key.trans sameKey, ?_⟩
      rw [cancel (sameKey ▸ isKey)]
      exact fresh
    · exact ⟨before, isBefore, sameKey, fresh⟩

theorem Sound.publish {event : TranscodeJobEvent Artifact} (live : state.Live aside id)
    (found : state.jobs.lookup id = some entry) (open_ : event.isTerminal = false) :
    (state.publish id entry event).Sound aside := by
  have put := sound.put { entry with event } live found rfl open_ (fun _ => rfl) (fun _ => rfl)
  refine put.note ?_ rfl (fun other event_ same => ?_) fun _ same => by cases same
  · rw [settled_published, open_]
    rfl
  · cases same
    exact sound.open_of_live live

theorem Sound.free_key (key : String) (id : Nat) : (state.freeKey key id).Sound aside := by
  unfold freeKey
  split
  · have below (other : String) (holder : Nat)
        (isKey : (state.byKey.erase key).lookup other = some holder) :
        state.byKey.lookup other = some holder := by
      rw [KeyedMap.lookup_erase_eq] at isKey
      split at isKey
      · cases isKey
      · exact isKey
    exact ⟨sound.counted, sound.live, sound.waiting, sound.settled, sound.known, sound.retired,
      fun other holder isKey => sound.keys other holder (below other holder isKey), sound.final,
      sound.order, sound.begun, sound.bound, sound.passed, fun flagged member =>
        ⟨(sound.flagged flagged member).1, fun other held =>
          (sound.flagged flagged member).2 other (below other flagged held)⟩⟩
  · exact sound

end

theorem free_key_of_absent {key : String} (absent : state.byKey.lookup key ≠ some id) :
    state.freeKey key id = state := if_neg absent

theorem freed_key (state : PoolState Work Artifact) (key : String) (id : Nat) :
    (state.freeKey key id).byKey.lookup key ≠ some id := by
  unfold freeKey
  split
  · change (state.byKey.erase key).lookup key ≠ some id
    rw [KeyedMap.lookup_erase_eq, if_pos rfl]
    nofun
  · rename_i other
    exact other

theorem free_key_fields (state : PoolState Work Artifact) (key : String) (id : Nat) :
    (state.freeKey key id) = { state with byKey := (state.freeKey key id).byKey } := by
  unfold freeKey
  split <;> rfl

theorem Sound.settle (sound : state.Sound (id :: aside))
    {event : TranscodeJobEvent Artifact} (found : state.jobs.lookup id = some entry)
    (ends : event.isTerminal = true)
    (accounted : id ∈ startedIds state.log ∨ ∃ reason, .withdrawn id reason ∈ state.log) :
    ((state.publish id entry event).freeKey entry.key id).Sound aside ∧
      id ∈ settledIds ((state.publish id entry event).freeKey entry.key id).log := by
  have settledLog : settledIds (state.publish id entry event).log = settledIds state.log ++ [id] := by
    change settledIds (state.log ++ [_]) = _
    rw [settled_ids_append, settled_published, if_pos ends]
  have startedLog : startedIds (state.publish id entry event).log = startedIds state.log := by
    change startedIds (state.log ++ [_]) = _
    rw [started_ids_append]
    exact List.append_nil _
  have isAside : state.Live (id :: aside) id := .inr (.inr List.mem_cons_self)
  have notSettled := sound.open_of_live isAside
  have counted := sound.counted id
  have noneElse : state.queued.count id = 0 ∧ state.tasks.count id = 0 ∧ aside.count id = 0 := by
    rw [List.count_cons_self] at counted
    split at counted <;> omega
  have elsewhere {other : Nat} (live : state.Live aside other) : other ≠ id := by
    rintro rfl
    rcases live with queued | running | later
    · exact List.count_eq_zero.mp noneElse.1 queued
    · exact List.count_eq_zero.mp noneElse.2.1 running
    · exact List.count_eq_zero.mp noneElse.2.2 later
  have before {other : Nat} (live : state.Live aside other) : state.Live (id :: aside) other := by
    rcases live with queued | running | later
    · exact .inl queued
    · exact .inr (.inl running)
    · exact .inr (.inr (List.mem_cons_of_mem _ later))
  have lookup (other : Nat) : (state.publish id entry event).jobs.lookup other =
      if other = id then some { entry with event } else state.jobs.lookup other :=
    KeyedMap.lookup_insert_eq _ _ _ _
  have freed := freed_key (state.publish id entry event) entry.key id
  have fields := free_key_fields (state.publish id entry event) entry.key id
  have keysBelow (key : String) (holder : Nat)
      (isKey : ((state.publish id entry event).freeKey entry.key id).byKey.lookup key = some holder) :
      state.byKey.lookup key = some holder := by
    unfold freeKey at isKey
    split at isKey
    · change (state.byKey.erase entry.key).lookup key = some holder at isKey
      rw [KeyedMap.lookup_erase_eq] at isKey
      split at isKey
      · cases isKey
      · exact isKey
    · exact isKey
  rw [fields]
  refine ⟨⟨fun other => ?_, fun other live => ?_, fun other queued => ?_, fun other found_ isFound => ?_,
    fun other found_ isFound => ?_, fun pair member => ?_, fun key holder isKey => ?_, ?_, ?_, ?_, ?_,
    fun other less => ?_, fun other member => ?_⟩, ?_⟩
  · have count := sound.counted other
    change state.queued.count other + state.tasks.count other + aside.count other +
      (settledIds (state.publish id entry event).log).count other =
        if other < state.nextId then 1 else 0
    rw [settledLog, List.count_append, List.count_singleton]
    rw [List.count_cons] at count
    omega
  · obtain ⟨entry_, isEntry, isOpen⟩ := sound.live other (before live)
    refine ⟨entry_, ?_, isOpen⟩
    change (state.publish id entry event).jobs.lookup other = _
    rw [lookup, if_neg (elsewhere live), isEntry]
  · obtain ⟨entry_, work, isEntry, isPending⟩ := sound.waiting other queued
    refine ⟨entry_, work, ?_, isPending⟩
    change (state.publish id entry event).jobs.lookup other = _
    rw [lookup, if_neg (elsewhere (.inl queued)), isEntry]
  · change (state.publish id entry event).jobs.lookup other = some found_ at isFound
    rw [lookup] at isFound
    change other ∈ settledIds (state.publish id entry event).log → _
    rw [settledLog]
    intro member
    split at isFound
    · cases isFound
      exact ends
    · rename_i different
      rcases List.mem_append.mp member with old | new
      · exact sound.settled other found_ isFound old
      · exact absurd (List.mem_singleton.mp new) different
  · change (state.publish id entry event).jobs.lookup other = some found_ at isFound
    rw [lookup] at isFound
    split at isFound
    · rename_i same
      subst same
      exact sound.known other entry found
    · exact sound.known other found_ isFound
  · change pair.1 ∈ settledIds (state.publish id entry event).log
    rw [settledLog]
    exact List.mem_append_left _ (sound.retired pair member)
  · obtain ⟨live, entry_, isEntry, sameKey, fresh⟩ := sound.keys key holder (keysBelow key holder isKey)
    have different : holder ≠ id := by
      rintro rfl
      rw [found] at isEntry
      cases isEntry
      subst sameKey
      exact freed isKey
    refine ⟨?_, entry_, ?_, sameKey, fresh⟩
    · rcases live with queued | running | later
      · exact .inl queued
      · exact .inr (.inl running)
      · rcases List.mem_cons.mp later with same | other
        · exact absurd same different
        · exact .inr (.inr other)
    · change (state.publish id entry event).jobs.lookup holder = _
      rw [lookup, if_neg different, isEntry]
  · exact sound.final.snoc fun other event_ same => by
      cases same
      exact notSettled
  · change (startedIds (state.publish id entry event).log ++ state.queued).Pairwise (· < ·)
    rw [startedLog]
    exact sound.order
  · change ∀ other ∈ state.tasks, other ∈ startedIds (state.publish id entry event).log
    rw [startedLog]
    exact sound.begun
  · change ∀ other ∈ startedIds (state.publish id entry event).log, other < state.nextId
    rw [startedLog]
    exact sound.bound
  · change other ∈ startedIds (state.publish id entry event).log ∨ other ∈ state.queued ∨ other ∈ aside ∨
      ∃ reason, .withdrawn other reason ∈ state.log ++ [_]
    rw [startedLog]
    have keep {other : Nat} (gone : ∃ reason, PoolEntry.withdrawn other reason ∈ state.log) :
        ∃ reason, PoolEntry.withdrawn other reason ∈ state.log ++ [.published id event] := by
      obtain ⟨reason, member⟩ := gone
      exact ⟨reason, List.mem_append_left _ member⟩
    rcases sound.passed other less with started | queued | later | gone
    · exact .inl started
    · exact .inr (.inl queued)
    · rcases List.mem_cons.mp later with rfl | isLater
      · rcases accounted with started | gone
        · exact .inl started
        · exact .inr (.inr (.inr (keep gone)))
      · exact .inr (.inr (.inl isLater))
    · exact .inr (.inr (.inr (keep gone)))
  · change PoolEntry.flagged other ∈ state.log ++ [_] at member
    rcases List.mem_append.mp member with old | new
    · obtain ⟨less, unheld⟩ := sound.flagged other old
      exact ⟨less, fun key held => unheld key (keysBelow key other held)⟩
    · cases List.mem_singleton.mp new
  · change id ∈ settledIds (state.publish id entry event).log
    rw [settledLog]
    exact List.mem_append_right _ (List.mem_singleton_self _)

theorem prune_terminal_spec (args : PoolArgs) (now : Nat) (terminal : List (Nat × Nat))
    (jobs : KeyedMap Nat (JobEntry Work Artifact)) :
    (∀ pair ∈ (pruneTerminal args now terminal jobs).1, pair ∈ terminal) ∧
      ∀ id, (pruneTerminal args now terminal jobs).2.lookup id = jobs.lookup id ∨
        (pruneTerminal args now terminal jobs).2.lookup id = none ∧ id ∈ terminal.map Prod.fst := by
  induction terminal generalizing jobs with
  | nil => exact ⟨fun _ member => member, fun _ => .inl rfl⟩
  | cons pair rest ih =>
    unfold pruneTerminal
    dsimp only
    split
    · exact ⟨fun _ member => member, fun _ => .inl rfl⟩
    · obtain ⟨fewer, lookups⟩ := ih (jobs.erase pair.1)
      refine ⟨fun other member => List.mem_cons_of_mem _ (fewer other member), fun id => ?_⟩
      rcases lookups id with same | ⟨gone, member⟩
      · rw [KeyedMap.lookup_erase_eq] at same
        split at same
        · rename_i isFirst
          exact .inr ⟨same, by rw [isFirst]; exact List.mem_cons_self⟩
        · exact .inl same
      · exact .inr ⟨gone, List.mem_cons_of_mem _ member⟩

theorem Sound.retire (sound : state.Sound aside) (now : Nat) (isSettled : id ∈ settledIds state.log) :
    (state.retire now id).Sound aside ∧ ∀ other, other ∉ settledIds state.log →
      (state.retire now id).jobs.lookup other = state.jobs.lookup other := by
  obtain ⟨fewer, lookups⟩ := prune_terminal_spec state.args now (state.terminal ++ [(id, now)]) state.jobs
  have settledPairs : ∀ pair ∈ state.terminal ++ [(id, now)], pair.1 ∈ settledIds state.log := by
    intro pair member
    rcases List.mem_append.mp member with old | new
    · exact sound.retired pair old
    · rw [List.mem_singleton.mp new]
      exact isSettled
  have kept (other : Nat) (open_ : other ∉ settledIds state.log) :
      (state.retire now id).jobs.lookup other = state.jobs.lookup other := by
    rcases lookups other with same | ⟨-, member⟩
    · exact same
    · obtain ⟨pair, isPair, rfl⟩ := List.mem_map.mp member
      exact absurd (settledPairs pair isPair) open_
  have below (other : Nat) (entry : JobEntry Work Artifact)
      (isEntry : (state.retire now id).jobs.lookup other = some entry) :
      state.jobs.lookup other = some entry := by
    rcases lookups other with same | ⟨gone, -⟩
    · exact same.symm.trans isEntry
    · exact absurd (gone.symm.trans isEntry) nofun
  refine ⟨⟨sound.counted, fun other live => ?_, fun other queued => ?_,
    fun other entry isEntry => sound.settled other entry (below other entry isEntry),
    fun other entry isEntry => sound.known other entry (below other entry isEntry),
    fun pair member => settledPairs pair (fewer pair member), fun key holder isKey => ?_, sound.final,
    sound.order, sound.begun, sound.bound, sound.passed, sound.flagged⟩, kept⟩
  · rw [kept other (sound.open_of_live live)]
    exact sound.live other live
  · rw [kept other (sound.open_of_live (.inl queued))]
    exact sound.waiting other queued
  · obtain ⟨live, entry, isEntry, rest⟩ := sound.keys key holder isKey
    exact ⟨live, entry, (kept holder (sound.open_of_live live)).trans isEntry, rest⟩

/-- What the first of the queue leaves when it starts. -/
structure Starts (state next : PoolState Work Artifact) (id : Nat) (rest : List Nat)
    (entry : JobEntry Work Artifact) : Prop where
  found : state.jobs.lookup id = some entry
  lookup : ∀ other, next.jobs.lookup other =
    if other = id then some { entry with pending := none, event := .running none }
    else state.jobs.lookup other
  log : ∃ work, next.log = state.log ++ [.published id (.running none), .started id work]
  next : next = { state with
    queued := rest, tasks := state.tasks ++ [id], jobs := next.jobs, log := next.log }

theorem Sound.start (sound : state.Sound aside) {rest : List Nat} (queue : state.queued = id :: rest) :
    ∃ entry next, ({ state with queued := rest } : PoolState Work Artifact).startJob id = some next ∧
      Starts state next id rest entry ∧ next.Sound aside := by
  have isQueued : id ∈ state.queued := by rw [queue]; exact List.mem_cons_self
  obtain ⟨entry, work, found, isPending⟩ := sound.waiting id isQueued
  have starts : ({ state with queued := rest } : PoolState Work Artifact).startJob id =
      some ({ state with
        queued := rest
        tasks := state.tasks ++ [id]
        jobs := state.jobs.insert id { entry with pending := none, event := .running none }
        log := state.log ++ [.published id (.running none)] ++ [.started id work] }) := by
    unfold startJob
    dsimp only
    rw [found]
    dsimp only
    rw [isPending]
    rfl
  refine ⟨entry, _, starts, ⟨found, fun other => KeyedMap.lookup_insert_eq _ _ _ _,
    ⟨work, List.append_assoc _ _ _⟩, rfl⟩, ?_⟩
  have order := sound.order
  rw [queue] at order
  have unstarted : id ∉ startedIds state.log := by
    intro again
    have less := (List.pairwise_append.mp order).2.2 id again id List.mem_cons_self
    omega
  have notSettled := sound.open_of_live (.inl isQueued)
  have apart : ∀ other ∈ rest, other ≠ id := by
    intro other member same
    have less := (List.pairwise_cons.mp (List.pairwise_append.mp order).2.1).1 other member
    omega
  have lookup (other : Nat) : (state.jobs.insert id
      { entry with pending := none, event := .running none }).lookup other =
      if other = id then some { entry with pending := none, event := .running none }
      else state.jobs.lookup other := KeyedMap.lookup_insert_eq _ _ _ _
  have settledLog : settledIds (state.log ++ [.published id (.running none)] ++
      [(.started id work : PoolEntry Work Artifact)]) = settledIds state.log := by
    rw [settled_ids_append, settled_ids_append]
    exact (List.append_nil _).trans (List.append_nil _)
  have startedLog : startedIds (state.log ++ [.published id (.running none)] ++
      [(.started id work : PoolEntry Work Artifact)]) = startedIds state.log ++ [id] := by
    rw [started_ids_append, started_ids_append]
    exact congrArg (· ++ [id]) (List.append_nil _)
  have before {other : Nat} (live : ({ state with
        queued := rest, tasks := state.tasks ++ [id] } : PoolState Work Artifact).Live aside other) :
      state.Live aside other := by
    rcases live with queued | running | later
    · exact .inl (by rw [queue]; exact List.mem_cons_of_mem _ queued)
    · rcases List.mem_append.mp running with old | new
      · exact .inr (.inl old)
      · rw [List.mem_singleton.mp new]
        exact .inl isQueued
    · exact .inr (.inr later)
  refine ⟨fun other => ?_, fun other live => ?_, fun other queued => ?_, fun other found_ isFound => ?_,
    fun other found_ isFound => ?_, fun pair member => ?_, fun key holder isKey => ?_, ?_, ?_,
    fun other running => ?_, fun other isStarted => ?_, fun other less => ?_, fun other member => ?_⟩
  · have count := sound.counted other
    rw [queue, List.count_cons] at count
    change rest.count other + (state.tasks ++ [id]).count other + aside.count other +
      (settledIds (state.log ++ _ ++ _)).count other = if other < state.nextId then 1 else 0
    rw [settledLog, List.count_append, List.count_singleton]
    omega
  · change ∃ entry_, (state.jobs.insert id _).lookup other = some entry_ ∧ _
    rw [lookup]
    split
    · exact ⟨_, rfl, rfl⟩
    · exact sound.live other (before live)
  · change ∃ entry_ work, (state.jobs.insert id _).lookup other = some entry_ ∧ _
    rw [lookup, if_neg (apart other queued)]
    exact sound.waiting other (by rw [queue]; exact List.mem_cons_of_mem _ queued)
  · change (state.jobs.insert id _).lookup other = some found_ at isFound
    change other ∈ settledIds (state.log ++ _ ++ _) → _
    rw [settledLog]
    rw [lookup] at isFound
    split at isFound
    · rename_i same
      subst same
      exact fun isSettled => absurd isSettled notSettled
    · exact sound.settled other found_ isFound
  · change (state.jobs.insert id _).lookup other = some found_ at isFound
    rw [lookup] at isFound
    split at isFound
    · rename_i same
      subst same
      exact sound.known other entry found
    · exact sound.known other found_ isFound
  · change pair.1 ∈ settledIds (state.log ++ _ ++ _)
    rw [settledLog]
    exact sound.retired pair member
  · obtain ⟨live, entry_, isEntry, sameKey, fresh⟩ := sound.keys key holder isKey
    refine ⟨?_, ?_⟩
    · rcases live with queued | running | later
      · rw [queue] at queued
        rcases List.mem_cons.mp queued with rfl | isRest
        · exact .inr (.inl (List.mem_append_right _ (List.mem_singleton_self _)))
        · exact .inl isRest
      · exact .inr (.inl (List.mem_append_left _ running))
      · exact .inr (.inr later)
    · change ∃ entry_, (state.jobs.insert id _).lookup holder = some entry_ ∧ _
      rw [lookup]
      split
      · rename_i same
        subst same
        rw [found] at isEntry
        cases isEntry
        exact ⟨_, rfl, sameKey, fresh⟩
      · exact ⟨entry_, isEntry, sameKey, fresh⟩
  · refine (sound.final.snoc fun other event same => ?_).snoc fun other event same => by cases same
    cases same
    exact notSettled
  · change (startedIds (state.log ++ _ ++ _) ++ rest).Pairwise (· < ·)
    rw [startedLog, List.append_assoc]
    exact order
  · change other ∈ startedIds (state.log ++ _ ++ _)
    rw [startedLog]
    rcases List.mem_append.mp running with old | new
    · exact List.mem_append_left _ (sound.begun other old)
    · exact List.mem_append_right _ new
  · change other ∈ startedIds (state.log ++ _ ++ _) at isStarted
    rw [startedLog] at isStarted
    rcases List.mem_append.mp isStarted with old | new
    · exact sound.bound other old
    · rw [List.mem_singleton.mp new]
      exact sound.known id entry found
  · change other ∈ startedIds (state.log ++ _ ++ _) ∨ other ∈ rest ∨ other ∈ aside ∨ _
    rw [startedLog]
    rcases sound.passed other less with started | queued | later | ⟨reason, member⟩
    · exact .inl (List.mem_append_left _ started)
    · rw [queue] at queued
      rcases List.mem_cons.mp queued with rfl | isRest
      · exact .inl (List.mem_append_right _ (List.mem_singleton_self _))
      · exact .inr (.inl isRest)
    · exact .inr (.inr (.inl later))
    · exact .inr (.inr (.inr ⟨reason, List.mem_append_left _ (List.mem_append_left _ member)⟩))
  · change PoolEntry.flagged other ∈ state.log ++ [_] ++ [_] at member
    rcases List.mem_append.mp member with before_ | new
    · rcases List.mem_append.mp before_ with old | published
      · exact sound.flagged other old
      · cases List.mem_singleton.mp published
    · cases List.mem_singleton.mp new

theorem Sound.fresh (sound : state.Sound aside) : state.nextId ∉ settledIds state.log ∧
    ¬state.Live aside state.nextId ∧ state.jobs.lookup state.nextId = none := by
  have counted := sound.counted state.nextId
  rw [if_neg (Nat.lt_irrefl _)] at counted
  refine ⟨List.count_eq_zero.mp (by omega), ?_, ?_⟩
  · rintro (queued | running | later)
    · exact List.count_eq_zero.mp (by omega : state.queued.count state.nextId = 0) queued
    · exact List.count_eq_zero.mp (by omega : state.tasks.count state.nextId = 0) running
    · exact List.count_eq_zero.mp (by omega : aside.count state.nextId = 0) later
  · cases found : state.jobs.lookup state.nextId with
    | none => rfl
    | some entry => exact absurd (sound.known _ entry found) (Nat.lt_irrefl _)

theorem Sound.create (sound : state.Sound aside) (entry : JobEntry Work Artifact)
    (open_ : entry.event.isTerminal = false) :
    Sound (state.nextId :: aside) { state with
      nextId := state.nextId + 1
      jobs := state.jobs.insert state.nextId entry } := by
  obtain ⟨notSettled, notLive, unknown⟩ := sound.fresh
  have lookup (other : Nat) : (state.jobs.insert state.nextId entry).lookup other =
      if other = state.nextId then some entry else state.jobs.lookup other :=
    KeyedMap.lookup_insert_eq _ _ _ _
  have elsewhere {other : Nat} (live : state.Live aside other) : other ≠ state.nextId :=
    fun same => notLive (same ▸ live)
  refine ⟨fun other => ?_, fun other live => ?_, fun other queued => ?_, fun other found isFound => ?_,
    fun other found isFound => ?_, sound.retired, fun key holder isKey => ?_, sound.final, sound.order,
    sound.begun, fun other isStarted => Nat.lt_succ_of_lt (sound.bound other isStarted), fun other less => ?_,
    fun other member => ⟨Nat.lt_succ_of_lt (sound.flagged other member).1, (sound.flagged other member).2⟩⟩
  · have count := sound.counted other
    change state.queued.count other + state.tasks.count other + (state.nextId :: aside).count other +
      (settledIds state.log).count other = if other < state.nextId + 1 then 1 else 0
    rw [List.count_cons]
    by_cases same : other = state.nextId
    · subst same
      rw [if_neg (Nat.lt_irrefl _)] at count
      rw [if_pos (Nat.lt_succ_self _), beq_self_eq_true, if_pos rfl]
      omega
    · have different : (state.nextId == other) = false := by
        simpa using fun equal => same equal.symm
      have sameRange : (other < state.nextId + 1) = (other < state.nextId) := by
        rw [eq_iff_iff]
        omega
      simp only [different, sameRange, Bool.false_eq_true, if_false]
      exact count
  · change ∃ entry_, (state.jobs.insert state.nextId entry).lookup other = some entry_ ∧ _
    rw [lookup]
    split
    · exact ⟨entry, rfl, open_⟩
    · rename_i different
      refine sound.live other ?_
      rcases live with queued | running | later
      · exact .inl queued
      · exact .inr (.inl running)
      · rcases List.mem_cons.mp later with same | isLater
        · exact absurd same different
        · exact .inr (.inr isLater)
  · change ∃ entry_ work, (state.jobs.insert state.nextId entry).lookup other = some entry_ ∧ _
    rw [lookup, if_neg (elsewhere (.inl queued))]
    exact sound.waiting other queued
  · change (state.jobs.insert state.nextId entry).lookup other = some found at isFound
    rw [lookup] at isFound
    split at isFound
    · rename_i same
      subst same
      exact fun isSettled => absurd isSettled notSettled
    · exact sound.settled other found isFound
  · change (state.jobs.insert state.nextId entry).lookup other = some found at isFound
    change other < state.nextId + 1
    rw [lookup] at isFound
    split at isFound
    · omega
    · exact Nat.lt_succ_of_lt (sound.known other found isFound)
  · obtain ⟨live, entry_, isEntry, rest⟩ := sound.keys key holder isKey
    refine ⟨?_, entry_, ?_, rest⟩
    · rcases live with queued | running | later
      · exact .inl queued
      · exact .inr (.inl running)
      · exact .inr (.inr (List.mem_cons_of_mem _ later))
    · change (state.jobs.insert state.nextId entry).lookup holder = some entry_
      rw [lookup, if_neg (elsewhere live), isEntry]
  · change other < state.nextId + 1 at less
    by_cases same : other = state.nextId
    · exact .inr (.inr (.inl (by rw [same]; exact List.mem_cons_self)))
    · rcases sound.passed other (by omega) with started | queued | later | gone
      · exact .inl started
      · exact .inr (.inl queued)
      · exact .inr (.inr (.inl (List.mem_cons_of_mem _ later)))
      · exact .inr (.inr (.inr gone))

theorem Sound.enqueue (sound : state.Sound (id :: aside)) {work : Work}
    (found : state.jobs.lookup id = some entry) (isPending : entry.pending = some work)
    (fresh : entry.cancel = false) (last : ∀ other ∈ startedIds state.log ++ state.queued, other < id)
    (unflagged : .flagged id ∉ state.log) : Sound aside { state with
      byKey := state.byKey.insert entry.key id
      queued := state.queued ++ [id] } := by
  have before {other : Nat} (live : ({ state with queued := state.queued ++ [id] } :
      PoolState Work Artifact).Live aside other) : state.Live (id :: aside) other := by
    rcases live with queued | running | later
    · rcases List.mem_append.mp queued with old | new
      · exact .inl old
      · exact .inr (.inr (by rw [List.mem_singleton.mp new]; exact List.mem_cons_self))
    · exact .inr (.inl running)
    · exact .inr (.inr (List.mem_cons_of_mem _ later))
  have after {other : Nat} (live : state.Live (id :: aside) other) :
      ({ state with queued := state.queued ++ [id] } : PoolState Work Artifact).Live aside other := by
    rcases live with queued | running | later
    · exact .inl (List.mem_append_left _ queued)
    · exact .inr (.inl running)
    · rcases List.mem_cons.mp later with rfl | isLater
      · exact .inl (List.mem_append_right _ (List.mem_singleton_self _))
      · exact .inr (.inr isLater)
  refine ⟨fun other => ?_, fun other live => sound.live other (before live), fun other queued => ?_,
    sound.settled, sound.known, sound.retired, fun key holder isKey => ?_, sound.final, ?_, sound.begun,
    sound.bound, fun other less => ?_, fun other member =>
      ⟨(sound.flagged other member).1, fun key held => ?_⟩⟩
  · have count := sound.counted other
    change (state.queued ++ [id]).count other + state.tasks.count other + aside.count other +
      (settledIds state.log).count other = if other < state.nextId then 1 else 0
    rw [List.count_cons] at count
    rw [List.count_append, List.count_singleton]
    omega
  · rcases List.mem_append.mp queued with old | new
    · exact sound.waiting other old
    · rw [List.mem_singleton.mp new]
      exact ⟨entry, work, found, isPending⟩
  · change (state.byKey.insert entry.key id).lookup key = some holder at isKey
    rw [KeyedMap.lookup_insert_eq] at isKey
    split at isKey
    · rename_i same
      cases isKey
      exact ⟨after (.inr (.inr List.mem_cons_self)), entry, found, same.symm, .inl fresh⟩
    · obtain ⟨live, rest⟩ := sound.keys key holder isKey
      exact ⟨after live, rest⟩
  · change (startedIds state.log ++ (state.queued ++ [id])).Pairwise (· < ·)
    rw [← List.append_assoc]
    refine List.pairwise_append.mpr ⟨sound.order, List.pairwise_singleton _ _, fun low isLow high isHigh => ?_⟩
    rw [List.mem_singleton.mp isHigh]
    exact last low isLow
  · rcases sound.passed other less with started | queued | later | gone
    · exact .inl started
    · exact .inr (.inl (List.mem_append_left _ queued))
    · rcases List.mem_cons.mp later with rfl | isLater
      · exact .inr (.inl (List.mem_append_right _ (List.mem_singleton_self _)))
      · exact .inr (.inr (.inl isLater))
    · exact .inr (.inr (.inr gone))
  · change (state.byKey.insert entry.key id).lookup key = some other at held
    rw [KeyedMap.lookup_insert_eq] at held
    split at held
    · cases held
      exact unflagged member
    · exact (sound.flagged other member).2 key held

theorem Sound.move {moved : List Nat} (sound : state.Sound aside) (queued tasks : List Nat)
    (counts : ∀ id, queued.count id + tasks.count id + moved.count id =
      state.queued.count id + state.tasks.count id + aside.count id)
    (fewer : queued.Sublist state.queued) (subset : ∀ id ∈ tasks, id ∈ state.tasks) :
    Sound moved { state with queued, tasks } := by
  have member (list : List Nat) (id : Nat) : id ∈ list ↔ 0 < list.count id := List.count_pos_iff.symm
  have same (id : Nat) : ({ state with queued, tasks } : PoolState Work Artifact).Live moved id ↔
      state.Live aside id := by
    have count := counts id
    change id ∈ queued ∨ id ∈ tasks ∨ id ∈ moved ↔
      id ∈ state.queued ∨ id ∈ state.tasks ∨ id ∈ aside
    rw [member, member, member, member, member, member]
    omega
  refine ⟨fun id => ?_, fun id live => sound.live id ((same id).mp live),
    fun id isQueued => sound.waiting id (fewer.subset isQueued), sound.settled, sound.known,
    sound.retired, fun key id isKey => ?_, sound.final, ?_, fun id running => sound.begun id (subset id running),
    sound.bound, fun id less => ?_, sound.flagged⟩
  · have count := counts id
    have counted := sound.counted id
    change queued.count id + tasks.count id + moved.count id + (settledIds state.log).count id =
      if id < state.nextId then 1 else 0
    omega
  · obtain ⟨live, rest⟩ := sound.keys key id isKey
    exact ⟨(same id).mpr live, rest⟩
  · exact sound.order.sublist (fewer.append_left _)
  · change id ∈ startedIds state.log ∨ id ∈ queued ∨ id ∈ moved ∨ _
    rcases sound.passed id less with started | isQueued | later | gone
    · exact .inl started
    · rcases (same id).mpr (.inl isQueued) with queued_ | running | isMoved
      · exact .inr (.inl queued_)
      · exact .inl (sound.begun id (subset id running))
      · exact .inr (.inr (.inl isMoved))
    · rcases (same id).mpr (.inr (.inr later)) with queued_ | running | isMoved
      · exact .inr (.inl queued_)
      · exact .inl (sound.begun id (subset id running))
      · exact .inr (.inr (.inl isMoved))
    · exact .inr (.inr (.inr gone))

theorem Sound.shutting (sound : state.Sound aside) : Sound aside { state with shuttingDown := true } := by
  refine ⟨sound.counted, sound.live, sound.waiting, sound.settled, sound.known, sound.retired,
    fun key id isKey => ?_, sound.final, sound.order, sound.begun, sound.bound, sound.passed, sound.flagged⟩
  obtain ⟨live, entry, found, sameKey, -⟩ := sound.keys key id isKey
  exact ⟨live, entry, found, sameKey, .inr rfl⟩

theorem Sound.flag_all (sound : state.Sound aside) (shutting : state.shuttingDown = true) :
    Sound aside { state with jobs := state.jobs.mapValues fun entry => { entry with cancel := true } } := by
  have lookup (id : Nat) := KeyedMap.lookup_map_values state.jobs
    (fun entry : JobEntry Work Artifact => { entry with cancel := true }) id
  refine ⟨sound.counted, fun id live => ?_, fun id queued => ?_, fun id entry found => ?_,
    fun id entry found => ?_, sound.retired, fun key id isKey => ?_, sound.final, sound.order,
    sound.begun, sound.bound, sound.passed, sound.flagged⟩
  · obtain ⟨entry, found, isOpen⟩ := sound.live id live
    exact ⟨{ entry with cancel := true }, by rw [lookup, found]; rfl, isOpen⟩
  · obtain ⟨entry, work, found, isPending⟩ := sound.waiting id queued
    exact ⟨{ entry with cancel := true }, work, by rw [lookup, found]; rfl, isPending⟩
  · rw [lookup] at found
    obtain ⟨before, isBefore, rfl⟩ := Option.map_eq_some_iff.mp found
    exact sound.settled id before isBefore
  · rw [lookup] at found
    obtain ⟨before, isBefore, rfl⟩ := Option.map_eq_some_iff.mp found
    exact sound.known id before isBefore
  · obtain ⟨live, entry, found, sameKey, -⟩ := sound.keys key id isKey
    exact ⟨live, { entry with cancel := true }, by rw [lookup, found]; rfl, sameKey, .inr shutting⟩

end PoolState

end Panoptikon.Transcode
