import Panoptikon.Inferio.Manager

/-!
# What a refused load leaves

The resize of the cache key comes before the refusal and is not undone. A load
is refused when its own resize takes the only reference of the model away, and
then the whole cache key is empty; nothing beyond the key changes.
-/

namespace Panoptikon.Inferio

open Foundation CacheState

namespace ManagerState

variable {latest : Int} {state : ManagerState}

variable (ids : List String)

theorem begin_unloads_fields (state : ManagerState) :
    beginUnloads ids state = { state with models := (beginUnloads ids state).models } := by
  induction ids generalizing state with
  | nil => rfl
  | cons id rest ih => exact ih (state.beginUnload id)

theorem begin_unloads_lookup (state : ManagerState) (id : String) :
    (beginUnloads ids state).models.lookup id = if id ∈ ids then none else state.models.lookup id := by
  induction ids generalizing state with
  | nil => rfl
  | cons first rest ih =>
    rw [beginUnloads, ih, beginUnload, KeyedMap.lookup_erase_eq]
    by_cases isFirst : id = first
    · subst isFirst
      rw [if_pos rfl, ite_self, if_pos List.mem_cons_self]
    · rw [if_neg isFirst]
      apply if_congr _ rfl rfl
      rw [List.mem_cons, or_iff_right isFirst]

theorem begin_unloads_cache (state : ManagerState) :
    (beginUnloads ids state).cache = state.cache := by rw [begin_unloads_fields]

/-- Between the requests the cache is as a sequence of its own operations leaves it. -/
theorem handle_consistent (consistent : state.cache.Consistent) (event : ManagerEvent) :
    (state.handle latest event).cache.Consistent := by
  have booked (state : CacheState) (isConsistent : state.Consistent) (op : CacheOp) :
      (op.apply latest state).1.Consistent := (apply_booked isConsistent op).consistent
  have unloaded (state : ManagerState) (isConsistent : state.cache.Consistent) (cacheKey inferenceId : String) :
      (state.unloadModel cacheKey inferenceId).cache.Consistent := by
    rw [unloadModel, begin_unloads_cache]
    exact booked _ isConsistent (.remove cacheKey inferenceId)
  cases event with
  | load inferenceId cacheKey lruSize ttlSeconds pinForPredict now =>
    rw [handle]
    split
    · unfold ensureLoaded
      split
      · exact consistent
      · extract_lets touch touched
        have isTouched : touched.cache.Consistent := by
          unfold touched
          rw [begin_unloads_cache]
          exact booked _ consistent (.touchLoad inferenceId cacheKey lruSize ttlSeconds now)
        split
        · exact isTouched
        · split
          · split
            · exact booked _ isTouched (.pin inferenceId)
            · exact isTouched
          · exact booked _ isTouched (.pin inferenceId)
    · exact consistent
  | spawned success =>
    rw [handle]
    split
    · exact consistent
    · rename_i spawning isSpawning
      have released : (state.cache.unpin spawning.inferenceId).Consistent :=
        booked _ consistent (.unpin spawning.inferenceId)
      unfold finishLoad
      extract_lets isReleased registered
      split
      · exact unloaded isReleased released _ _
      · split
        · exact released
        · split
          · exact booked _ released (.pin spawning.inferenceId)
          · exact released
  | dropLoad =>
    rw [handle]
    split
    · exact consistent
    · rename_i spawning isSpawning
      exact booked _ consistent (.unpin spawning.inferenceId)
  | dropGuard index now =>
    rw [handle, dropGuard]
    split
    · exact consistent
    · rename_i guard isGuard
      exact booked _ consistent (.unpinRestore guard.inferenceId guard.cacheKey guard.ttlSeconds now)
  | unload cacheKey inferenceId => exact unloaded state consistent cacheKey inferenceId
  | clear cacheKey =>
    rw [handle, clearCache, begin_unloads_cache]
    exact booked _ consistent (.clear cacheKey)
  | sweep order now =>
    rw [handle, sweep]
    split
    · exact consistent
    · rw [begin_unloads_cache]
      exact booked _ consistent (.expire order now)
  | death inferenceId generation =>
    rw [handle, handleWorkerDeath]
    split
    · exact booked _ consistent (.removeEverywhere inferenceId)
    · exact consistent
  | shutdown => exact default_consistent

theorem manager_consistent (latest : Int) (events : List ManagerEvent) :
    ((managerMachine latest).run events).cache.Consistent :=
  (managerMachine latest).run_invariant (fun state => state.cache.Consistent) (fun _ _ => True)
    default_consistent (fun _ event _ consistent => handle_consistent consistent event) events
    ((managerMachine latest).admitted_run_of_forall fun _ _ => trivial)

/-- What a refused load may not touch: all but the entry of its model under its cache key, and the
registration of the model. -/
structure OthersUntouched (before after : ManagerState) (inferenceId cacheKey : String) : Prop where
  entries : ∀ key id, ¬(key = cacheKey ∧ id = inferenceId) →
    after.cache.entry key id = before.cache.entry key id ∧ (after.cache.Held key id ↔ before.cache.Held key id)
  pins : after.cache.pins = before.cache.pins ∧ after.guards = before.guards
  models : ∀ id, id ≠ inferenceId → after.models.lookup id = before.models.lookup id

/-- The cache key is emptied, and what loses its last reference by it is unloaded. -/
structure KeyEmptied (before after : ManagerState) (inferenceId cacheKey : String) : Prop where
  entries : ∀ key id, key ≠ cacheKey →
    after.cache.entry key id = before.cache.entry key id ∧ (after.cache.Held key id ↔ before.cache.Held key id)
  emptied : ∀ id, after.cache.entry cacheKey id = none ∧ ¬after.cache.Held cacheKey id
  pins : after.cache.pins = before.cache.pins ∧ after.guards = before.guards
  /-- A model stays that another key references, and one that this key did not. -/
  models : ∀ id, (∃ key, key ≠ cacheKey ∧ before.cache.Held key id) ∨
      (¬before.cache.Held cacheKey id ∧ id ≠ inferenceId) →
    after.models.lookup id = before.models.lookup id
  unloaded : ∀ id, before.cache.Held cacheKey id ∨ id = inferenceId →
    (∀ key, key ≠ cacheKey → ¬before.cache.Held key id) → after.models.lookup id = none

theorem refs_non_empty_iff {cache : CacheState} (consistent : cache.Consistent) (inferenceId : String) :
    cache.refsNonEmpty inferenceId = true ↔ Referenced cache.Held inferenceId := by
  rw [referenced_iff consistent.tidy]
  unfold refsNonEmpty
  cases stored : cache.cacheRefs.lookup inferenceId with
  | none => exact iff_of_false Bool.false_ne_true Bool.false_ne_true
  | some refs => exact iff_of_true (decide_eq_true (consistent.tidy inferenceId refs stored)) rfl

theorem resize_lru_of {cache : CacheState} (cacheKey : String) (lruSize : Int) {key : String}
    (other : key ≠ cacheKey) : (cache.resize cacheKey lruSize).1.lruOf key = cache.lruOf key := by
  unfold resize
  cases stored : cache.lruCaches.lookup cacheKey with
  | none => rfl
  | some lru =>
    dsimp only
    rw [lru_of_insert, if_neg other]

section Touch

variable {cache : CacheState} (consistent : cache.Consistent) (inferenceId cacheKey : String)
  (lruSize ttlSeconds now : Int)

include consistent

theorem touch_load_others {key : String} (other : key ≠ cacheKey) (id : String) :
    (cache.touchLoad latest inferenceId cacheKey lruSize ttlSeconds now).1.entry key id = cache.entry key id ∧
      ((cache.touchLoad latest inferenceId cacheKey lruSize ttlSeconds now).1.Held key id ↔ cache.Held key id) := by
  have list : (cache.touchLoad latest inferenceId cacheKey lruSize ttlSeconds now).1.lruOf key = cache.lruOf key := by
    refine (@resize_lru_of (cache.touched latest inferenceId cacheKey ttlSeconds now) cacheKey lruSize
      key other).trans ?_
    rw [touched, lru_of_insert, if_neg other]
  obtain ⟨booked, -⟩ := @touch_load_booked latest cache consistent inferenceId cacheKey lruSize ttlSeconds now
  constructor
  · rw [entry, list, entry]
  · rw [booked.consistent.agree, consistent.agree, lruIds, list, lruIds]

/-- After the touch the model holds its key unless the size leaves room for none. -/
theorem touch_load_held :
  (cache.touchLoad latest inferenceId cacheKey lruSize ttlSeconds now).1.Held cacheKey inferenceId ↔
    0 < lruSize := by
  obtain ⟨booked, list⟩ := @touch_load_booked latest _ consistent inferenceId cacheKey lruSize ttlSeconds now
  rw [booked.consistent.agree, list]
  cases size : lruSize.toNat with
  | zero =>
    rw [List.take_zero]
    exact iff_of_false List.not_mem_nil (by omega)
  | succ size =>
    rw [List.take_succ_cons]
    exact iff_of_true List.mem_cons_self (by omega)

theorem touch_load_emptied (noRoom : lruSize ≤ 0) (id : String) :
    (cache.touchLoad latest inferenceId cacheKey lruSize ttlSeconds now).1.entry cacheKey id = none ∧
      ¬(cache.touchLoad latest inferenceId cacheKey lruSize ttlSeconds now).1.Held cacheKey id := by
  obtain ⟨booked, list⟩ := @touch_load_booked latest _ consistent inferenceId cacheKey lruSize ttlSeconds now
  have absent : id ∉ (cache.touchLoad latest inferenceId cacheKey lruSize ttlSeconds now).1.lruIds cacheKey := by
    rw [list, Int.toNat_of_nonpos noRoom, List.take_zero]
    exact List.not_mem_nil
  constructor
  · rw [mem_lru_ids, Bool.not_eq_true, Option.isSome_eq_false_iff, Option.isNone_iff_eq_none] at absent
    exact absent
  · rw [booked.consistent.agree]
    exact absent

end Touch

/-- The state in which the check of a load finds the model without a reference. -/
theorem refused_state {inferenceId cacheKey : String} {lruSize ttlSeconds now : Int} {pinForPredict : Bool}
    (refused : (state.ensureLoaded latest inferenceId cacheKey lruSize ttlSeconds pinForPredict now).2 = .refused) :
    (state.ensureLoaded latest inferenceId cacheKey lruSize ttlSeconds pinForPredict now).1 =
        beginUnloads (state.cache.touchLoad latest inferenceId cacheKey lruSize ttlSeconds now).2
          { state with cache := (state.cache.touchLoad latest inferenceId cacheKey lruSize ttlSeconds now).1 } ∧
      (state.cache.touchLoad latest inferenceId cacheKey lruSize ttlSeconds now).1.refsNonEmpty inferenceId = false := by
  unfold ensureLoaded at refused ⊢
  split at refused
  · cases refused
  · rename_i running
    rw [if_neg running]
    dsimp only at refused ⊢
    rw [begin_unloads_cache] at refused ⊢
    split at refused
    · rename_i noReference
      rw [if_pos noReference]
      exact ⟨rfl, Bool.not_eq_true' _ ▸ noReference⟩
    · split at refused
      · split at refused <;> cases refused
      · cases refused

theorem refused_empties_key (consistent : state.cache.Consistent) {inferenceId cacheKey : String}
    {lruSize ttlSeconds now : Int} {pinForPredict : Bool}
    (refused : (state.ensureLoaded latest inferenceId cacheKey lruSize ttlSeconds pinForPredict now).2 = .refused) :
    (lruSize ≤ 0 ∧ ∀ key, key ≠ cacheKey → ¬state.cache.Held key inferenceId) ∧
      KeyEmptied state (state.ensureLoaded latest inferenceId cacheKey lruSize ttlSeconds pinForPredict now).1
        inferenceId cacheKey := by
  obtain ⟨isState, noReference⟩ := refused_state refused
  obtain ⟨booked, -⟩ := @touch_load_booked latest _ consistent inferenceId cacheKey lruSize ttlSeconds now
  have others {key : String} := @touch_load_others latest _ consistent inferenceId cacheKey lruSize ttlSeconds
    now key
  have unreferenced : ¬Referenced (state.cache.touchLoad latest inferenceId cacheKey lruSize ttlSeconds now).1.Held
      inferenceId := by
    rw [← refs_non_empty_iff booked.consistent, noReference]
    exact Bool.false_ne_true
  have noRoom : lruSize ≤ 0 := by
    by_contra room
    exact unreferenced ⟨cacheKey, (touch_load_held consistent inferenceId cacheKey lruSize ttlSeconds now).mpr
      (by omega)⟩
  have emptied := @touch_load_emptied latest _ consistent inferenceId cacheKey lruSize ttlSeconds now noRoom
  -- What is referenced afterwards is what another key references.
  have referenced (id : String) :
      Referenced (state.cache.touchLoad latest inferenceId cacheKey lruSize ttlSeconds now).1.Held id ↔
        ∃ key, key ≠ cacheKey ∧ state.cache.Held key id := by
    constructor
    · rintro ⟨key, held⟩
      have other : key ≠ cacheKey := by
        rintro rfl
        exact (emptied id).2 held
      exact ⟨key, other, ((others other id).2).mp held⟩
    · rintro ⟨key, other, held⟩
      exact ⟨key, ((others other id).2).mpr held⟩
  have isUnloaded (id : String) : id ∈ (state.cache.touchLoad latest inferenceId cacheKey lruSize ttlSeconds now).2 ↔
      (Referenced state.cache.Held id ∨ id = inferenceId) ∧ ¬∃ key, key ≠ cacheKey ∧ state.cache.Held key id := by
    have last := booked.reported.last id
    rw [referenced] at last
    refine last.trans ?_
    simp [CacheOp.reports, CacheOp.touch, eq_comm]
  rw [isState]
  refine ⟨⟨noRoom, fun key other held => unreferenced ((referenced inferenceId).mpr ⟨key, other, held⟩)⟩,
    ⟨fun key id other => ?_, fun id => ?_, ?_, fun id stays => ?_, fun id was alone => ?_⟩⟩
  · rw [begin_unloads_cache]
    exact others other id
  · rw [begin_unloads_cache]
    exact emptied id
  · rw [begin_unloads_fields]
    exact ⟨(resize_ids (touched_consistent latest consistent inferenceId cacheKey ttlSeconds now) cacheKey
      lruSize).1.pins, rfl⟩
  · rw [begin_unloads_lookup, if_neg]
    rw [isUnloaded]
    rintro ⟨was, alone⟩
    rcases stays with elsewhere | ⟨notHere, notIt⟩
    · exact alone elsewhere
    · rcases was with ⟨key, held⟩ | isIt
      · by_cases here : key = cacheKey
        · exact notHere (here ▸ held)
        · exact alone ⟨key, here, held⟩
      · exact notIt isIt
  · rw [begin_unloads_lookup, if_pos]
    rw [isUnloaded]
    refine ⟨was.imp (fun held => ⟨cacheKey, held⟩) fun isIt => isIt, ?_⟩
    rintro ⟨key, other, held⟩
    exact alone key other held

end ManagerState

/-- A refused load empties its cache key and changes nothing else. -/
theorem refused_load_empties (latest : Int) (events : List ManagerEvent) (inferenceId cacheKey : String)
    (lruSize ttlSeconds : Int) (pinForPredict : Bool) (now : Int)
    (refused : (((managerMachine latest).run events).ensureLoaded latest inferenceId cacheKey lruSize ttlSeconds
      pinForPredict now).2 = .refused) :
    (lruSize ≤ 0 ∧ ∀ key, key ≠ cacheKey → ¬((managerMachine latest).run events).cache.Held key inferenceId) ∧
      ((managerMachine latest).run events).KeyEmptied
        (((managerMachine latest).run events).ensureLoaded latest inferenceId cacheKey lruSize ttlSeconds
          pinForPredict now).1 inferenceId cacheKey :=
  ManagerState.refused_empties_key (ManagerState.manager_consistent latest events) refused

theorem refused_load_empties_key : ((managerMachine 0).run
    [.load "a" "k" 2 (-1) false 0, .spawned true]).KeyEmptied
      (((managerMachine 0).run [.load "a" "k" 2 (-1) false 0, .spawned true]).ensureLoaded 0 "b" "k" 0 (-1) true 1).1
        "b" "k" :=
  (refused_load_empties 0 [.load "a" "k" 2 (-1) false 0, .spawned true] "b" "k" 0 (-1) true 1 (by decide +kernel)).2

/-- A model is loaded under a key with room for two; a load of another one with room for none is
refused, and the first is gone. -/
theorem refused_load_evicts : ¬∀ (latest : Int) (events : List ManagerEvent) (inferenceId cacheKey : String)
    (lruSize ttlSeconds : Int) (pinForPredict : Bool) (now : Int),
    (((managerMachine latest).run events).ensureLoaded latest inferenceId cacheKey lruSize ttlSeconds
      pinForPredict now).2 = .refused →
    ((managerMachine latest).run events).OthersUntouched
      (((managerMachine latest).run events).ensureLoaded latest inferenceId cacheKey lruSize ttlSeconds
        pinForPredict now).1 inferenceId cacheKey := by
  intro claimed
  have untouched := claimed 0 [.load "a" "k" 2 (-1) false 0, .spawned true] "b" "k" 0 (-1) false 1 (by decide +kernel)
  have kept := untouched.models "a" (by decide)
  revert kept
  decide +kernel

end Panoptikon.Inferio
