import Panoptikon.Inferio.Refusals

/-!
# Registered models and references

A registered model is referenced, and a referenced model is registered or is
the one whose workers are being spawned. Each request keeps this, and the pins
count the guards; a request that is dropped while its workers are being
spawned leaves its reference behind.
-/

namespace Panoptikon.Inferio

open Foundation CacheState

namespace ManagerState

variable {latest : Int} {state : ManagerState}

/-- The guards that are alive, that of the spawn among them. -/
def liveGuards (state : ManagerState) (inferenceId : String) : Nat :=
  (state.guards.map PinGuard.inferenceId).count inferenceId +
    (state.spawning.toList.map Spawning.inferenceId).count inferenceId

structure Books (state : ManagerState) : Prop where
  consistent : state.cache.Consistent
  registered : ∀ id generation, state.models.lookup id = some generation →
    Referenced state.cache.Held id ∧ generation < state.nextGeneration
  referenced : ∀ id, Referenced state.cache.Held id → state.models.lookup id = none →
    ∃ spawning, state.spawning = some spawning ∧ spawning.inferenceId = id
  /-- The model being spawned is referenced by the cache key of its load alone. -/
  own : ∀ spawning, state.spawning = some spawning → state.models.lookup spawning.inferenceId = none ∧
    ∀ key, state.cache.Held key spawning.inferenceId → key = spawning.cacheKey
  stopped : state.shuttingDown = true → ∀ id, ¬Referenced state.cache.Held id
  pins : ∀ id, state.cache.pinCount id = if state.shuttingDown then 0 else state.liveGuards id

/-- A model has room for one more guard, and no load is dropped that leaves its reference. -/
def KeepsBooks (state : ManagerState) : ManagerEvent → Prop
  | .load inferenceId _ _ _ _ _ => state.liveGuards inferenceId + 1 < u32Limit
  | .dropLoad => ∀ spawning, state.spawning = some spawning → ¬Referenced state.cache.Held spawning.inferenceId
  | _ => True

variable {cache : CacheState}

section

variable (books : state.Books)

include books

theorem Books.drop {reported : List String}
    (kept : Kept state.cache cache reported) : (beginUnloads reported { state with cache }).Books := by
  have fewer (id : String) (still : Referenced cache.Held id) : Referenced state.cache.Held id :=
    kept.released.referenced still
  have lookup (id : String) := begin_unloads_lookup reported { state with cache } id
  rw [begin_unloads_fields]
  refine ⟨kept.consistent, fun id generation isModel => ?_, fun id still notModel => ?_,
    fun spawning isSpawning => ⟨?_, fun key held => ?_⟩, fun stopped id still => ?_, fun id => ?_⟩
  · rw [lookup] at isModel
    split at isModel
    · cases isModel
    · rename_i notReported
      obtain ⟨before, less⟩ := books.registered id generation isModel
      refine ⟨?_, less⟩
      by_contra gone
      exact notReported ((kept.released.last id).mpr ⟨before, gone⟩)
  · rw [lookup, if_neg fun isReported => ((kept.released.last id).mp isReported).2 still] at notModel
    exact books.referenced id (fewer id still) notModel
  · rw [lookup, (books.own spawning isSpawning).1, ite_self]
  · exact (books.own spawning isSpawning).2 key (kept.released.fewer key _ held)
  · exact books.stopped stopped id (fewer id still)
  · exact (pin_count_of_pins kept.pins id).trans (books.pins id)

theorem Books.unload (cacheKey inferenceId : String) : (state.unloadModel cacheKey inferenceId).Books :=
  books.drop (remove_kept books.consistent cacheKey inferenceId).1

theorem Books.clear (cacheKey : String) : (state.clearCache cacheKey).Books :=
  books.drop (clear_kept books.consistent cacheKey).1

theorem Books.sweep (order : WalkOrder (Σ _ : String, Lru)) (now : Int) : (state.sweep order now).Books := by
  unfold ManagerState.sweep
  split
  · exact books
  · exact books.drop (expire_kept books.consistent order now).1

theorem Books.death (inferenceId : String) (generation : Nat) :
    (state.handleWorkerDeath inferenceId generation).Books := by
  unfold handleWorkerDeath
  split
  · rename_i isRegistered
    have held (key id : String) := remove_everywhere_held state.cache inferenceId key id
    have referenced (id : String) (still : Referenced (state.cache.removeEverywhere inferenceId).Held id) :
        Referenced state.cache.Held id ∧ id ≠ inferenceId := by
      obtain ⟨key, isHeld⟩ := still
      obtain ⟨before, other⟩ := (held key id).mp isHeld
      exact ⟨⟨key, before⟩, other⟩
    refine ⟨remove_everywhere_consistent books.consistent inferenceId, fun id generation isModel => ?_,
      fun id still notModel => ?_, fun spawning isSpawning => ⟨?_, fun key isHeld => ?_⟩,
      fun stopped id still => books.stopped stopped id (referenced id still).1, books.pins⟩
    · rw [KeyedMap.lookup_erase_eq] at isModel
      split at isModel
      · cases isModel
      · rename_i other
        obtain ⟨⟨key, before⟩, less⟩ := books.registered id generation isModel
        exact ⟨⟨key, (held key id).mpr ⟨before, other⟩⟩, less⟩
    · obtain ⟨before, other⟩ := referenced id still
      rw [KeyedMap.lookup_erase_eq, if_neg other] at notModel
      exact books.referenced id before notModel
    · rw [KeyedMap.lookup_erase_eq, (books.own spawning isSpawning).1, ite_self]
    · exact (books.own spawning isSpawning).2 key ((held key _).mp isHeld).1
  · exact books

theorem Books.repin {guards : List PinGuard}
    (refs : cache.cacheRefs = state.cache.cacheRefs) (consistent : cache.Consistent)
    (pins : ∀ id, cache.pinCount id = if state.shuttingDown then 0
      else liveGuards { state with cache, guards } id) : Books { state with cache, guards } := by
  have held : cache.Held = state.cache.Held := by rw [Held, refs]
  refine ⟨consistent, ?_, ?_, ?_, ?_, pins⟩
  · change ∀ id generation, _ → Referenced cache.Held id ∧ _
    rw [held]
    exact books.registered
  · change ∀ id, Referenced cache.Held id → _
    rw [held]
    exact books.referenced
  · change ∀ spawning, _ → _ ∧ ∀ key, cache.Held key _ → _
    rw [held]
    exact books.own
  · change _ → ∀ id, ¬Referenced cache.Held id
    rw [held]
    exact books.stopped

end

theorem live_guards_hand_out (state : ManagerState) (guard : PinGuard) (id : String) :
    (state.handOut guard).liveGuards id = state.liveGuards id + if id = guard.inferenceId then 1 else 0 := by
  unfold liveGuards handOut
  dsimp only
  rw [List.map_append, List.count_append, List.map_singleton, List.count_singleton]
  by_cases same : id = guard.inferenceId
  · rw [if_pos same, if_pos (beq_iff_eq.mpr same.symm)]
    omega
  · rw [if_neg same, if_neg fun equal => same (beq_iff_eq.mp equal).symm]
    omega

variable {spawning : Spawning}

theorem live_guards_spawning (isSpawning : state.spawning = some spawning) (id : String) : state.liveGuards id =
      liveGuards { state with spawning := none } id + if id = spawning.inferenceId then 1 else 0 := by
  unfold liveGuards
  rw [isSpawning]
  dsimp only
  rw [Option.toList_some, Option.toList_none, List.map_singleton, List.map_nil, List.count_nil, List.count_singleton]
  by_cases same : id = spawning.inferenceId
  · rw [if_pos same, if_pos (beq_iff_eq.mpr same.symm)]
  · rw [if_neg same, if_neg fun equal => same (beq_iff_eq.mp equal).symm]

theorem pin_count_room {count : Nat} {inferenceId : String}
    (counted : cache.pinCount inferenceId = count) (room : count + 1 < u32Limit) (id : String) :
    (cache.pin inferenceId).pinCount id = cache.pinCount id + if id = inferenceId then 1 else 0 := by
  rw [pin_count_pin]
  by_cases same : id = inferenceId
  · rw [if_pos same, if_pos same, counted, Nat.mod_eq_of_lt room, same, counted]
  · rw [if_neg same, if_neg same]
    rfl

theorem Books.hand_out (books : state.Books) (running : state.shuttingDown = false) {guard : PinGuard}
    (room : state.liveGuards guard.inferenceId + 1 < u32Limit) : (state.handOut guard).Books := by
  have pins (id : String) : state.cache.pinCount id = state.liveGuards id := by
    rw [books.pins, running, if_neg Bool.false_ne_true]
  have consistent : (state.cache.pin guard.inferenceId).Consistent := (@apply_booked 0 _ books.consistent
    (.pin guard.inferenceId)).consistent
  refine books.repin rfl consistent fun id => ?_
  rw [running, if_neg Bool.false_ne_true, pin_count_room (pins _) room, pins]
  exact (live_guards_hand_out state guard id).symm

theorem Books.drop_guard (books : state.Books) (index : Nat) (now : Int) :
    (state.dropGuard latest index now).Books := by
  unfold ManagerState.dropGuard
  split
  · exact books
  · rename_i guard isGuard
    have consistent := (@apply_booked latest _ books.consistent
      (.unpinRestore guard.inferenceId guard.cacheKey guard.ttlSeconds now)).consistent
    refine books.repin (cache_refs_unpin_restore latest state.cache guard.inferenceId guard.cacheKey guard.ttlSeconds
      now) consistent fun id => ?_
    obtain ⟨inside, isHere⟩ := List.getElem?_eq_some_iff.mp isGuard
    have counted := ((List.getElem_cons_eraseIdx_perm inside).map PinGuard.inferenceId).count_eq id
    rw [isHere, List.map_cons, List.count_cons] at counted
    rw [pin_count_unpin_restore, pin_count_unpin, books.pins, books.pins]
    unfold liveGuards
    dsimp only
    cases state.shuttingDown with
    | true =>
      rw [if_pos rfl, if_pos rfl, if_pos rfl]
      exact ite_self 0
    | false =>
      rw [if_neg Bool.false_ne_true, if_neg Bool.false_ne_true, if_neg Bool.false_ne_true]
      by_cases same : id = guard.inferenceId
      · subst same
        rw [if_pos (beq_self_eq_true _)] at counted
        rw [if_pos rfl]
        omega
      · rw [if_neg fun equal => same (beq_iff_eq.mp equal).symm] at counted
        rw [if_neg same]
        omega

theorem Books.release (books : state.Books) (isSpawning : state.spawning = some spawning)
    (id : String) : (state.cache.unpin spawning.inferenceId).pinCount id =
      if state.shuttingDown then 0 else (state.guards.map PinGuard.inferenceId).count id := by
  rw [pin_count_unpin, books.pins, books.pins]
  unfold liveGuards
  rw [isSpawning, Option.toList_some, List.map_singleton, List.count_singleton, List.count_singleton]
  cases state.shuttingDown with
  | true =>
    rw [if_pos rfl, if_pos rfl, if_pos rfl]
    exact ite_self 0
  | false =>
    rw [if_neg Bool.false_ne_true, if_neg Bool.false_ne_true, if_neg Bool.false_ne_true]
    by_cases same : id = spawning.inferenceId
    · subst same
      rw [if_pos rfl, if_pos (beq_self_eq_true _)]
      rfl
    · rw [if_neg same, if_neg fun equal => same (beq_iff_eq.mp equal).symm, Nat.add_zero]

/-- The state before and behind the spawn of a load: only its own model can be referenced and not
registered. -/
structure Touched (touched : ManagerState) (inferenceId cacheKey : String) : Prop where
  consistent : touched.cache.Consistent
  idle : touched.spawning = none
  stopped : touched.shuttingDown = true → ∀ id, ¬Referenced touched.cache.Held id
  registered : ∀ id generation, touched.models.lookup id = some generation →
    Referenced touched.cache.Held id ∧ generation < touched.nextGeneration
  referenced : ∀ id, Referenced touched.cache.Held id → touched.models.lookup id = none → id = inferenceId
  own : touched.models.lookup inferenceId = none → ∀ key, touched.cache.Held key inferenceId → key = cacheKey
  pins : ∀ id, touched.cache.pinCount id = if touched.shuttingDown then 0 else touched.liveGuards id

theorem Books.touch (books : state.Books) (idle : state.spawning = none) (running : state.shuttingDown = false)
    (inferenceId cacheKey : String) (lruSize ttlSeconds now : Int) :
    Touched (beginUnloads (state.cache.touchLoad latest inferenceId cacheKey lruSize ttlSeconds now).2
      { state with cache := (state.cache.touchLoad latest inferenceId cacheKey lruSize ttlSeconds now).1 })
      inferenceId cacheKey := by
  obtain ⟨booked, -⟩ := @touch_load_booked latest _ books.consistent inferenceId cacheKey lruSize ttlSeconds now
  obtain ⟨resized, -⟩ := resize_ids (touched_consistent latest books.consistent inferenceId cacheKey ttlSeconds now)
    cacheKey lruSize
  have fewer (key id : String)
      (held : (state.cache.touchLoad latest inferenceId cacheKey lruSize ttlSeconds now).1.Held key id) :
      state.cache.Held key id ∨ (key = cacheKey ∧ id = inferenceId) :=
    (touched_held latest state.cache inferenceId cacheKey ttlSeconds now key id).mp (resized.released.fewer key id held)
  have unloaded (id : String) : id ∈ (state.cache.touchLoad latest inferenceId cacheKey lruSize ttlSeconds now).2 →
      ¬Referenced (state.cache.touchLoad latest inferenceId cacheKey lruSize ttlSeconds now).1.Held id :=
    fun isUnloaded => ((booked.reported.last id).mp isUnloaded).2.2
  have known (id : String) (was : Referenced state.cache.Held id) : state.models.lookup id ≠ none := by
    intro notModel
    obtain ⟨spawning, isSpawning, -⟩ := books.referenced id was notModel
    rw [idle] at isSpawning
    cases isSpawning
  have lookup (id : String) := begin_unloads_lookup
    (state.cache.touchLoad latest inferenceId cacheKey lruSize ttlSeconds now).2
    { state with cache := (state.cache.touchLoad latest inferenceId cacheKey lruSize ttlSeconds now).1 } id
  rw [begin_unloads_fields]
  refine ⟨booked.consistent, idle, fun stopped => ?_, fun id generation isModel => ?_, fun id still notModel => ?_,
    fun notModel key held => ?_, fun id => (pin_count_of_pins resized.pins id).trans (books.pins id)⟩
  · rw [show state.shuttingDown = true from stopped] at running
    cases running
  · rw [lookup] at isModel
    split at isModel
    · cases isModel
    · rename_i stays
      obtain ⟨before, less⟩ := books.registered id generation isModel
      refine ⟨?_, less⟩
      by_contra gone
      exact stays ((booked.reported.last id).mpr ⟨rfl, .inl before, gone⟩)
  · rw [lookup, if_neg fun isUnloaded => unloaded id isUnloaded still] at notModel
    obtain ⟨key, held⟩ := still
    rcases fewer key id held with before | ⟨-, own⟩
    · exact absurd notModel (known id ⟨key, before⟩)
    · exact own
  · rw [lookup, if_neg fun isUnloaded => unloaded inferenceId isUnloaded ⟨key, held⟩] at notModel
    rcases fewer key inferenceId held with before | ⟨own, -⟩
    · exact absurd notModel (known inferenceId ⟨key, before⟩)
    · exact own

variable {touched : ManagerState} {inferenceId cacheKey : String}

theorem Touched.books (isTouched : touched.Touched inferenceId cacheKey)
    (known : Referenced touched.cache.Held inferenceId → touched.models.lookup inferenceId ≠ none) : touched.Books := by
  refine ⟨isTouched.consistent, isTouched.registered, fun id still notModel => ?_, fun spawning isSpawning => ?_,
    isTouched.stopped, isTouched.pins⟩
  · have own := isTouched.referenced id still notModel
    subst own
    exact absurd notModel (known still)
  · rw [isTouched.idle] at isSpawning
    cases isSpawning

theorem Books.ensure_loaded (books : state.Books) (idle : state.spawning = none) (inferenceId cacheKey : String)
    (lruSize ttlSeconds : Int) (pinForPredict : Bool) (now : Int)
    (room : state.liveGuards inferenceId + 1 < u32Limit) :
    (state.ensureLoaded latest inferenceId cacheKey lruSize ttlSeconds pinForPredict now).1.Books := by
  unfold ensureLoaded
  split
  · exact books
  · rename_i notShutting
    have isTouched := @Books.touch latest _ books idle (eq_false_of_ne_true notShutting) inferenceId cacheKey lruSize
      ttlSeconds now
    extract_lets touch touched
    have running : touched.shuttingDown = false := by
      unfold touched
      rw [begin_unloads_fields]
      exact eq_false_of_ne_true notShutting
    have sameGuards : touched.liveGuards inferenceId = state.liveGuards inferenceId := by
      unfold touched
      rw [begin_unloads_fields]
      rfl
    change touched.Touched inferenceId cacheKey at isTouched
    split
    · rename_i noReference
      apply isTouched.books
      rw [Bool.not_eq_true', ← Bool.not_eq_true, refs_non_empty_iff isTouched.consistent] at noReference
      exact fun still => absurd still noReference
    · split
      · rename_i isModel
        have isBooks : touched.Books := by
          apply isTouched.books
          intro _ notModel
          rw [notModel] at isModel
          cases isModel
        split
        · exact isBooks.hand_out running (sameGuards ▸ room)
        · exact isBooks
      · rename_i notModel
        rw [Bool.not_eq_true, Option.isSome_eq_false_iff, Option.isNone_iff_eq_none] at notModel
        have consistent : (touched.cache.pin inferenceId).Consistent :=
          (@apply_booked 0 _ isTouched.consistent (.pin inferenceId)).consistent
        refine ⟨consistent, isTouched.registered, fun id still absent => ?_, fun spawning isSpawning => ?_,
          fun stopped => ?_, fun id => ?_⟩
        · exact ⟨_, rfl, (isTouched.referenced id still absent).symm⟩
        · cases isSpawning
          exact ⟨notModel, isTouched.own notModel⟩
        · rw [show touched.shuttingDown = true from stopped] at running
          cases running
        · have pins (id : String) : touched.cache.pinCount id = touched.liveGuards id := by
            rw [isTouched.pins, running, if_neg Bool.false_ne_true]
          change (touched.cache.pin inferenceId).pinCount id = if touched.shuttingDown then 0 else _
          rw [running, if_neg Bool.false_ne_true, pin_count_room (pins _) (sameGuards ▸ room), pins]
          unfold liveGuards
          rw [isTouched.idle]
          dsimp only
          rw [Option.toList_some, Option.toList_none, List.map_singleton, List.map_nil, List.count_nil,
            List.count_singleton]
          by_cases same : id = inferenceId
          · rw [if_pos same, if_pos (beq_iff_eq.mpr same.symm)]
          · rw [if_neg same, if_neg fun equal => same (beq_iff_eq.mp equal).symm]

theorem Books.released (books : state.Books) (isSpawning : state.spawning = some spawning) :
    Touched { state with cache := state.cache.unpin spawning.inferenceId, spawning := none } spawning.inferenceId
      spawning.cacheKey := by
  have held : (state.cache.unpin spawning.inferenceId).Held = state.cache.Held := by rw [Held, cache_refs_unpin]
  refine ⟨(@apply_booked 0 _ books.consistent (.unpin spawning.inferenceId)).consistent, rfl, ?_, ?_, ?_, ?_,
    fun id => (books.release isSpawning id).trans rfl⟩
  · change _ → ∀ id, ¬Referenced (state.cache.unpin _).Held id
    rw [held]
    exact books.stopped
  · change ∀ id generation, _ → Referenced (state.cache.unpin _).Held id ∧ _
    rw [held]
    exact books.registered
  · change ∀ id, Referenced (state.cache.unpin _).Held id → _
    rw [held]
    intro id still notModel
    obtain ⟨other, isOther, own⟩ := books.referenced id still notModel
    rw [isSpawning] at isOther
    cases isOther
    exact own.symm
  · change _ → ∀ key, (state.cache.unpin _).Held key _ → _
    rw [held]
    exact fun _ => (books.own spawning isSpawning).2

theorem Touched.unload
    (isTouched : touched.Touched inferenceId cacheKey) (notModel : touched.models.lookup inferenceId = none) :
    (touched.unloadModel cacheKey inferenceId).Books := by
  obtain ⟨kept, entries⟩ := remove_kept isTouched.consistent cacheKey inferenceId
  have lookup (id : String) := begin_unloads_lookup (touched.cache.remove cacheKey inferenceId).2.unload.toList
    { touched with cache := (touched.cache.remove cacheKey inferenceId).1 } id
  unfold unloadModel
  dsimp only
  rw [begin_unloads_fields]
  refine ⟨kept.consistent, fun id generation isModel => ?_, fun id still absent => ?_,
    fun spawning isSpawning => ?_, fun stopped id still => ?_, fun id => ?_⟩
  · rw [lookup] at isModel
    split at isModel
    · cases isModel
    · rename_i stays
      obtain ⟨before, less⟩ := isTouched.registered id generation isModel
      refine ⟨?_, less⟩
      by_contra gone
      exact stays ((kept.released.last id).mpr ⟨before, gone⟩)
  · rw [lookup, if_neg fun isUnloaded => ((kept.released.last id).mp isUnloaded).2 still] at absent
    have own := isTouched.referenced id (kept.released.referenced still) absent
    subst own
    obtain ⟨key, held⟩ := still
    have isKey := isTouched.own notModel key (kept.released.fewer key id held)
    subst isKey
    have isEntry := mem_lru_ids.mp ((kept.consistent.agree key id).mp held)
    rw [entries, if_pos ⟨rfl, rfl⟩] at isEntry
    cases isEntry
  · have idle : touched.spawning = some spawning := isSpawning
    rw [isTouched.idle] at idle
    cases idle
  · exact isTouched.stopped stopped id (kept.released.referenced still)
  · exact (pin_count_of_pins kept.pins id).trans (isTouched.pins id)

theorem Touched.register
    (isTouched : touched.Touched inferenceId cacheKey) (still : Referenced touched.cache.Held inferenceId) :
    Books { touched with
      models := touched.models.insert inferenceId touched.nextGeneration
      nextGeneration := touched.nextGeneration + 1 } := by
  refine ⟨isTouched.consistent, fun id generation isModel => ?_, fun id isReferenced absent => ?_,
    fun spawning isSpawning => ?_, isTouched.stopped, isTouched.pins⟩
  · rw [KeyedMap.lookup_insert_eq] at isModel
    split at isModel
    · rename_i own
      subst own
      cases isModel
      exact ⟨still, Nat.lt_succ_self _⟩
    · obtain ⟨before, less⟩ := isTouched.registered id generation isModel
      exact ⟨before, Nat.lt_succ_of_lt less⟩
  · rw [KeyedMap.lookup_insert_eq] at absent
    split at absent
    · cases absent
    · rename_i other
      exact absurd (isTouched.referenced id isReferenced absent) other
  · have idle : touched.spawning = some spawning := isSpawning
    rw [isTouched.idle] at idle
    cases idle

theorem Books.finish_load (books : state.Books) (isSpawning : state.spawning = some spawning)
    (spawned : Bool) (room : state.liveGuards spawning.inferenceId < u32Limit) :
    (state.finishLoad spawning spawned).Books := by
  have isTouched := books.released isSpawning
  have notModel := (books.own spawning isSpawning).1
  unfold finishLoad
  extract_lets released registered
  change released.Touched _ _ at isTouched
  split
  · exact isTouched.unload notModel
  · split
    · rename_i ended
      apply isTouched.books
      intro still
      rw [Bool.or_eq_true, Bool.not_eq_true'] at ended
      rcases ended with stopped | noReference
      · exact absurd still (isTouched.stopped stopped _)
      · rw [(refs_non_empty_iff isTouched.consistent _).mpr still] at noReference
        cases noReference
    · rename_i goesOn
      rw [Bool.or_eq_true, not_or, Bool.not_eq_true', Bool.not_eq_false,
        refs_non_empty_iff isTouched.consistent] at goesOn
      have isRegistered := isTouched.register goesOn.2
      split
      · apply isRegistered.hand_out (eq_false_of_ne_true goesOn.1)
        rw [live_guards_spawning isSpawning, if_pos rfl] at room
        exact room
      · exact isRegistered

theorem Books.drop_load (books : state.Books) (isSpawning : state.spawning = some spawning)
    (unreferenced : ¬Referenced state.cache.Held spawning.inferenceId) : (state.dropLoad spawning).Books := by
  apply (books.released isSpawning).books
  have held : (state.cache.unpin spawning.inferenceId).Held = state.cache.Held := by rw [Held, cache_refs_unpin]
  change Referenced (state.cache.unpin spawning.inferenceId).Held _ → _
  rw [held]
  exact fun still => absurd still unreferenced

theorem unreferenced_default (id : String) : ¬Referenced CacheState.default.Held id := by
  rintro ⟨key, held⟩
  exact absurd held (Finset.notMem_empty key)

theorem shutdown_books (state : ManagerState) : state.shutdown.Books := by
  refine ⟨default_consistent, fun id generation isModel => ?_, fun id still => absurd still (unreferenced_default id),
    fun spawning _ => ⟨rfl, fun key held => absurd ⟨key, held⟩ (unreferenced_default _)⟩,
      fun _ => unreferenced_default, fun _ => rfl⟩
  cases isModel

theorem live_guards_idle_le (state : ManagerState) (id : String) :
    liveGuards { state with spawning := none } id ≤ state.liveGuards id :=
  Nat.add_le_add_left (Nat.zero_le _) _

/-- The count of the guards of a model is a word. -/
def Roomy (state : ManagerState) : Prop := ∀ id, state.liveGuards id < u32Limit

theorem roomy_of_fewer {after : ManagerState} (roomy : state.Roomy)
    (fewer : ∀ id, after.liveGuards id ≤ state.liveGuards id) : after.Roomy :=
  fun id => Nat.lt_of_le_of_lt (fewer id) (roomy id)

theorem live_guards_begin_unloads (ids : List String) (state : ManagerState) (id : String) :
    (beginUnloads ids state).liveGuards id = state.liveGuards id := by
  rw [begin_unloads_fields]
  rfl

theorem roomy_handle (roomy : state.Roomy) {event : ManagerEvent} (keeps : state.KeepsBooks event) :
    (state.handle latest event).Roomy := by
  cases event with
  | load inferenceId cacheKey lruSize ttlSeconds pinForPredict now =>
    rw [handle]
    split
    · rename_i idle
      have one (id : String) (count : Nat) (less : count ≤ state.liveGuards id + if id = inferenceId then 1 else 0) :
          count < u32Limit := by
        have before := roomy id
        have room : state.liveGuards inferenceId + 1 < u32Limit := keeps
        by_cases same : id = inferenceId
        · subst same
          rw [if_pos rfl] at less
          omega
        · rw [if_neg same] at less
          omega
      intro id
      apply one id
      unfold ensureLoaded
      split
      · exact Nat.le_add_right _ _
      · extract_lets touch touched
        have same (id : String) : touched.liveGuards id = state.liveGuards id := live_guards_begin_unloads _ _ id
        split
        · exact Nat.le_trans (Nat.le_of_eq (same id)) (Nat.le_add_right _ _)
        · split
          · split
            · rw [live_guards_hand_out, same]
            · exact Nat.le_trans (Nat.le_of_eq (same id)) (Nat.le_add_right _ _)
          · rw [live_guards_spawning rfl, ← same]
            exact Nat.add_le_add_right (live_guards_idle_le touched id) _
    · exact roomy
  | spawned success =>
    rw [handle]
    split
    · exact roomy
    · rename_i spawning isSpawning
      apply roomy_of_fewer roomy
      intro id
      unfold finishLoad
      extract_lets released registered
      have fewer : released.liveGuards id ≤ state.liveGuards id := live_guards_idle_le state id
      split
      · exact Nat.le_trans (Nat.le_of_eq (live_guards_begin_unloads _ _ id)) fewer
      · split
        · exact fewer
        · split
          · rw [live_guards_hand_out, live_guards_spawning isSpawning]
            rfl
          · exact fewer
  | dropLoad =>
    rw [handle]
    split
    · exact roomy
    · exact roomy_of_fewer roomy fun id => live_guards_idle_le state id
  | dropGuard index now =>
    rw [handle, ManagerState.dropGuard]
    split
    · exact roomy
    · apply roomy_of_fewer roomy
      intro id
      apply Nat.add_le_add_right
      exact ((List.eraseIdx_sublist state.guards index).map PinGuard.inferenceId).count_le id
  | unload | clear =>
    exact roomy_of_fewer roomy fun id => Nat.le_of_eq (live_guards_begin_unloads _ _ id)
  | sweep order now =>
    rw [handle, ManagerState.sweep]
    split
    · exact roomy
    · exact roomy_of_fewer roomy fun id => Nat.le_of_eq (live_guards_begin_unloads _ _ id)
  | death inferenceId generation =>
    rw [handle, handleWorkerDeath]
    split <;> exact roomy
  | shutdown => exact roomy

theorem Books.handle (books : state.Books) (roomy : state.Roomy) {event : ManagerEvent}
    (keeps : state.KeepsBooks event) : (state.handle latest event).Books := by
  cases event with
  | load inferenceId cacheKey lruSize ttlSeconds pinForPredict now =>
    rw [ManagerState.handle]
    split
    · rename_i idle
      exact books.ensure_loaded idle inferenceId cacheKey lruSize ttlSeconds pinForPredict now keeps
    · exact books
  | spawned success =>
    rw [ManagerState.handle]
    split
    · exact books
    · rename_i spawning isSpawning
      exact books.finish_load isSpawning success (roomy _)
  | dropLoad =>
    rw [ManagerState.handle]
    split
    · exact books
    · rename_i spawning isSpawning
      exact books.drop_load isSpawning (keeps spawning isSpawning)
  | dropGuard index now => exact books.drop_guard index now
  | unload cacheKey inferenceId => exact books.unload cacheKey inferenceId
  | clear cacheKey => exact books.clear cacheKey
  | sweep order now => exact books.sweep order now
  | death inferenceId generation => exact books.death inferenceId generation
  | shutdown => exact shutdown_books state

/-- Models and references agree. -/
structure Agreed (latest : Int) (state : ManagerState) : Prop where
  registered : ∀ id, (state.models.lookup id).isSome = true → Referenced state.cache.Held id
  settled : state.spawning = none → ∀ id, Referenced state.cache.Held id ↔ (state.models.lookup id).isSome = true
  pins : ∀ id, state.cache.pinCount id = if state.shuttingDown then 0 else state.liveGuards id
  fresh : ∀ id generation, state.models.lookup id = some generation → generation < state.nextGeneration
  older : ∀ id generation, state.models.lookup id ≠ some generation →
    state.handle latest (.death id generation) = state

theorem Books.agreed (books : state.Books) : state.Agreed latest := by
  have registered (id : String) (isModel : (state.models.lookup id).isSome = true) : Referenced state.cache.Held id := by
    obtain ⟨generation, isGeneration⟩ := Option.isSome_iff_exists.mp isModel
    exact (books.registered id generation isGeneration).1
  refine ⟨registered, fun idle id => ⟨fun still => ?_, registered id⟩, books.pins,
    fun id generation isModel => (books.registered id generation isModel).2, fun id generation other => if_neg other⟩
  by_contra notModel
  rw [Bool.not_eq_true, Option.isSome_eq_false_iff, Option.isNone_iff_eq_none] at notModel
  obtain ⟨spawning, isSpawning, -⟩ := books.referenced id still notModel
  rw [idle] at isSpawning
  cases isSpawning

theorem books_init (latest : Int) : (managerMachine latest).init.Books := by
  refine ⟨default_consistent, fun id generation isModel => ?_, fun id still => absurd still (unreferenced_default id),
    fun spawning isSpawning => ?_, fun _ => unreferenced_default, fun _ => rfl⟩
  · cases isModel
  · cases isSpawning

end ManagerState

/-- Models and references agree in the runs in which no load is dropped that leaves its reference. -/
theorem manager_agreed (latest : Int) (events : List ManagerEvent)
    (keeps : (managerMachine latest).AdmittedRun ManagerState.KeepsBooks events) :
    ((managerMachine latest).run events).Agreed latest := by
  have both := (managerMachine latest).run_invariant (fun state => state.Books ∧ state.Roomy) ManagerState.KeepsBooks
    ⟨ManagerState.books_init latest, fun _ => Nat.two_pow_pos 32⟩
    (fun state event keeps both => ⟨both.1.handle both.2 keeps, ManagerState.roomy_handle both.2 keeps⟩) events keeps
  exact both.1.agreed

theorem manager_agreed_dropped_predict : ((managerMachine 0).run
    [.load "m" "k" 1 60 true 0, .spawned true, .dropGuard 0 1]).Agreed 0 :=
  manager_agreed 0 _ ⟨show (managerMachine 0).init.liveGuards "m" + 1 < u32Limit by decide, trivial, trivial, trivial⟩

/-- A load is dropped while its workers are being spawned, and its reference stays; and a shutdown
forgets the pin of a predict that has not ended. -/
theorem manager_disagrees :
    (¬∀ (latest : Int) (events : List ManagerEvent), ((managerMachine latest).run events).spawning = none →
      ∀ id, Referenced ((managerMachine latest).run events).cache.Held id ↔
        (((managerMachine latest).run events).models.lookup id).isSome = true) ∧
    ¬∀ (latest : Int) (events : List ManagerEvent) (id : String),
      ((managerMachine latest).run events).cache.pinCount id = ((managerMachine latest).run events).liveGuards id := by
  constructor
  · intro claimed
    have phantom := (claimed 0 [.load "m" "k" 1 60 false 0, .dropLoad] (by decide +kernel) "m").mp
      ⟨"k", by unfold Held refsHold; decide +kernel⟩
    revert phantom
    decide +kernel
  · intro claimed
    have forgotten := claimed 0 [.load "m" "k" 1 60 true 0, .spawned true, .shutdown] "m"
    revert forgotten
    decide +kernel

end Panoptikon.Inferio
