import Panoptikon.Inferio.CacheBooks

/-!
# Runs of the cache state

Every operation leaves the books in order, and so does every sequence of them.
-/

namespace Panoptikon.Inferio

open Foundation CacheState

namespace CacheOp

/-- The entry an operation puts in front. -/
def touch : CacheOp → Option (String × String)
  | .touchLoad inferenceId cacheKey _ _ _ => some (cacheKey, inferenceId)
  | _ => none

/-- Only `remove_everywhere`, which follows the death of the workers, leaves
nothing to unload. -/
def reports : CacheOp → Bool
  | .removeEverywhere _ => false
  | _ => true

def pinned : CacheOp → Option String
  | .pin inferenceId => some inferenceId
  | _ => none

def unpinned : CacheOp → Option String
  | .unpin inferenceId | .unpinRestore inferenceId _ _ _ => some inferenceId
  | _ => none

end CacheOp

/-- What a touch does to the models of a cache key, the last touched first. -/
def recency (cacheKey : String) (recent : List String) (op : CacheOp) : List String :=
  match op.touch with
  | some (key, inferenceId) =>
      if key = cacheKey then inferenceId :: recent.erase inferenceId else recent
  | none => recent

/-- The models a cache key was ever touched with, the last touched first. -/
def touches (cacheKey : String) (ops : List CacheOp) : List String :=
  ops.foldl (recency cacheKey) []

/-- The models reported are those that held a reference, if only during the
operation, and hold none after it. -/
structure Reported (op : CacheOp) (before after : CacheState) (reported : List String) : Prop where
  once : reported.Nodup
  last : ∀ inferenceId, inferenceId ∈ reported ↔ op.reports = true ∧
    (Referenced before.Held inferenceId ∨ op.touch.map Prod.snd = some inferenceId) ∧
    ¬Referenced after.Held inferenceId

/-- What an operation does to the books. -/
structure Booked (op : CacheOp) (before after : CacheState) (reported : List String) : Prop where
  consistent : after.Consistent
  reported : Reported op before after reported
  recent : ∀ cacheKey,
    (after.lruIds cacheKey).Sublist (recency cacheKey (before.lruIds cacheKey) op)

variable {before after : CacheState}

section Step

variable {latest : Int} {state : CacheState}

theorem CacheState.Kept.booked {op : CacheOp} {reported : List String}
    (kept : Kept before after reported) (reports : op.reports = true) (touchless : op.touch = none)
    (recent : ∀ cacheKey, (after.lruIds cacheKey).Sublist (before.lruIds cacheKey)) :
    Booked op before after reported where
  consistent := kept.consistent
  reported := ⟨kept.released.once, fun inferenceId => by
    rw [kept.released.last, touchless]
    simp [reports]⟩
  recent := by
    intro cacheKey
    rw [recency, touchless]
    exact recent cacheKey

theorem booked_of_same {op : CacheOp} (consistent : before.Consistent)
    (reports : op.reports = true) (touchless : op.touch = none) (refs : after.cacheRefs = before.cacheRefs)
    (lists : ∀ cacheKey, after.lruIds cacheKey = before.lruIds cacheKey) : Booked op before after [] where
  consistent := ⟨by rw [refs]; exact consistent.tidy, fun key id => by
    rw [Held, refs, lists]
    exact consistent.agree key id⟩
  reported := ⟨List.nodup_nil, fun inferenceId => by
    rw [Held, Held, refs, touchless]
    simp [reports]⟩
  recent := by
    intro cacheKey
    rw [recency, touchless, lists]

theorem touch_load_booked (consistent : state.Consistent)
    (inferenceId cacheKey : String) (lruSize ttlSeconds now : Int) :
    Booked (.touchLoad inferenceId cacheKey lruSize ttlSeconds now) state
      (state.touchLoad latest inferenceId cacheKey lruSize ttlSeconds now).1
      (state.touchLoad latest inferenceId cacheKey lruSize ttlSeconds now).2 ∧
    (state.touchLoad latest inferenceId cacheKey lruSize ttlSeconds now).1.lruIds cacheKey =
      (inferenceId :: (state.lruIds cacheKey).erase inferenceId).take lruSize.toNat := by
  obtain ⟨kept, lists⟩ := resize_ids
    (touched_consistent latest consistent inferenceId cacheKey ttlSeconds now) cacheKey lruSize
  have resized : state.touchLoad latest inferenceId cacheKey lruSize ttlSeconds now =
      (state.touched latest inferenceId cacheKey ttlSeconds now).resize cacheKey lruSize := rfl
  rw [resized]
  have front := touched_ids latest state inferenceId cacheKey ttlSeconds now
  refine ⟨⟨kept.consistent, ⟨kept.released.once, fun id => ?_⟩, fun key => ?_⟩, ?_⟩
  · have referenced : Referenced (state.touched latest inferenceId cacheKey ttlSeconds now).Held id ↔
        Referenced state.Held id ∨ inferenceId = id := by
      simp [Referenced, touched_held, exists_or, eq_comm]
    rw [kept.released.last, referenced]
    simp [CacheOp.reports, CacheOp.touch]
  · rw [lists, recency]
    simp only [CacheOp.touch]
    split_ifs with same other other
    · rw [same, front, if_pos rfl]
      exact List.take_sublist _ _
    · exact absurd same.symm other
    · exact absurd other.symm same
    · rw [front, if_neg same]
  · rw [lists, if_pos rfl, front, if_pos rfl]

theorem apply_booked (consistent : state.Consistent) (op : CacheOp) :
    Booked op state (op.apply latest state).1 (op.apply latest state).2 := by
  cases op with
  | touchLoad inferenceId cacheKey lruSize ttlSeconds now =>
    exact (touch_load_booked consistent inferenceId cacheKey lruSize ttlSeconds now).1
  | resize cacheKey lruSize =>
    obtain ⟨kept, lists⟩ := resize_ids consistent cacheKey lruSize
    refine kept.booked rfl rfl fun key => ?_
    rw [lists]
    split_ifs with same
    · rw [same]
      exact List.take_sublist _ _
    · exact List.Sublist.refl _
  | remove cacheKey inferenceId =>
    exact (remove_kept consistent cacheKey inferenceId).1.booked rfl rfl
      (remove_ids state cacheKey inferenceId)
  | clear cacheKey =>
    obtain ⟨kept, lists⟩ := clear_kept consistent cacheKey
    refine kept.booked rfl rfl fun key => ?_
    rw [lists]
    split_ifs
    · exact List.nil_sublist _
    · exact List.Sublist.refl _
  | expire order now =>
    exact (expire_kept consistent order now).1.booked rfl rfl fun key =>
      remove_all_ids _ key state
  | pin inferenceId => exact booked_of_same consistent rfl rfl rfl fun _ => rfl
  | unpin inferenceId =>
    exact booked_of_same consistent rfl rfl (cache_refs_unpin state inferenceId)
      (lru_ids_unpin state inferenceId)
  | unpinRestore inferenceId cacheKey ttlSeconds now =>
    exact booked_of_same consistent rfl rfl
      (cache_refs_unpin_restore latest state inferenceId cacheKey ttlSeconds now)
      (lru_ids_unpin_restore latest state inferenceId cacheKey ttlSeconds now)
  | removeEverywhere inferenceId =>
    refine ⟨remove_everywhere_consistent consistent inferenceId, ⟨List.nodup_nil, ?_⟩, ?_⟩
    · simp [CacheOp.reports, CacheOp.apply]
    · intro key
      change (AList.keys ((state.removeEverywhere inferenceId).lruOf key)).Sublist _
      rw [lru_of_remove_everywhere, AList.keys_erase]
      exact List.erase_sublist

end Step

def cacheMachine (latest : Int) : Machine CacheState CacheOp where
  init := CacheState.default
  step := fun state op => (op.apply latest state).1

theorem default_consistent : CacheState.default.Consistent where
  tidy := fun _ _ found => by cases found
  agree := by simp [Held, refsHold, lruIds, lruOf, CacheState.default]

variable (latest : Int)

theorem run_consistent (ops : List CacheOp) : ((cacheMachine latest).run ops).Consistent :=
  (cacheMachine latest).run_invariant Consistent (fun _ _ => True) default_consistent
    (fun _ op _ consistent => (apply_booked consistent op).consistent) ops
    ((cacheMachine latest).admitted_run_of_forall fun _ _ => trivial)

theorem recency_sublist {cacheKey : String} {older newer : List String}
    (sublist : older.Sublist newer) (op : CacheOp) :
    (recency cacheKey older op).Sublist (recency cacheKey newer op) := by
  unfold recency
  split
  · split_ifs
    · exact (sublist.erase _).cons_cons _
    · exact sublist
  · exact sublist

/-- The models of a cache key are in the order in which they were last touched. -/
theorem run_recent (ops : List CacheOp) (cacheKey : String) :
    (((cacheMachine latest).run ops).lruIds cacheKey).Sublist (touches cacheKey ops) := by
  have from_any : ∀ (ops : List CacheOp) (state : CacheState) (recent : List String),
      state.Consistent → (state.lruIds cacheKey).Sublist recent →
      ((ops.foldl (cacheMachine latest).step state).lruIds cacheKey).Sublist
        (ops.foldl (recency cacheKey) recent) := by
    intro ops
    induction ops with
    | nil => exact fun _ _ _ sublist => sublist
    | cons op rest ih =>
      intro state recent consistent sublist
      have booked := @apply_booked latest state consistent op
      exact ih _ _ booked.consistent
        ((booked.recent cacheKey).trans (recency_sublist sublist op))
  exact from_any ops _ [] default_consistent (List.Sublist.refl _)

/-- A pin that is counted without wrapping, and an unpin that has a pin. -/
def PinMatched (state : CacheState) (op : CacheOp) : Prop :=
  (∀ inferenceId, op.pinned = some inferenceId → state.pinCount inferenceId + 1 < u32Limit) ∧
  ∀ inferenceId, op.unpinned = some inferenceId → 0 < state.pinCount inferenceId

def pinsTaken (ops : List CacheOp) (inferenceId : String) : Nat :=
  (ops.filterMap CacheOp.pinned).count inferenceId

def pinsReleased (ops : List CacheOp) (inferenceId : String) : Nat :=
  (ops.filterMap CacheOp.unpinned).count inferenceId

theorem pin_count_of_pins (same : after.pins = before.pins)
    (inferenceId : String) : after.pinCount inferenceId = before.pinCount inferenceId := by
  rw [pinCount, same, pinCount]

theorem pin_count_apply {state : CacheState} (consistent : state.Consistent)
    (op : CacheOp) (id : String) : (op.apply latest state).1.pinCount id =
      if op.pinned = some id then (state.pinCount id + 1) % u32Limit
      else if op.unpinned = some id then state.pinCount id - 1 else state.pinCount id := by
  cases op with
  | touchLoad inferenceId cacheKey lruSize ttlSeconds now =>
    exact pin_count_of_pins (resize_ids (touched_consistent latest consistent inferenceId cacheKey
      ttlSeconds now) cacheKey lruSize).1.pins id
  | resize cacheKey lruSize =>
    exact pin_count_of_pins (resize_ids consistent cacheKey lruSize).1.pins id
  | remove cacheKey inferenceId =>
    exact pin_count_of_pins (remove_kept consistent cacheKey inferenceId).1.pins id
  | clear cacheKey => exact pin_count_of_pins (clear_kept consistent cacheKey).1.pins id
  | expire order now => exact pin_count_of_pins (expire_kept consistent order now).1.pins id
  | pin inferenceId =>
    refine (pin_count_pin state inferenceId id).trans ?_
    by_cases same : id = inferenceId
    · subst same
      simp [CacheOp.pinned]
    · simp [CacheOp.pinned, CacheOp.unpinned, same, Ne.symm same]
  | unpin inferenceId =>
    refine (pin_count_unpin state inferenceId id).trans ?_
    by_cases same : id = inferenceId
    · subst same
      simp [CacheOp.pinned, CacheOp.unpinned]
    · simp [CacheOp.pinned, CacheOp.unpinned, same, Ne.symm same]
  | unpinRestore inferenceId cacheKey ttlSeconds now =>
    refine (pin_count_unpin_restore latest state inferenceId cacheKey ttlSeconds now id).trans ?_
    refine (pin_count_unpin state inferenceId id).trans ?_
    by_cases same : id = inferenceId
    · subst same
      simp [CacheOp.pinned, CacheOp.unpinned]
    · simp [CacheOp.pinned, CacheOp.unpinned, same, Ne.symm same]
  | removeEverywhere inferenceId => rfl

theorem run_counted {ops : List CacheOp}
    (matched : (cacheMachine latest).AdmittedRun PinMatched ops) (id : String) :
    ((cacheMachine latest).run ops).pinCount id + pinsReleased ops id = pinsTaken ops id := by
  have from_any : ∀ (ops : List CacheOp) (state : CacheState), state.Consistent →
      (cacheMachine latest).AdmittedFrom PinMatched state ops →
      (ops.foldl (cacheMachine latest).step state).pinCount id + pinsReleased ops id =
        state.pinCount id + pinsTaken ops id := by
    intro ops
    induction ops with
    | nil => exact fun _ _ _ => rfl
    | cons op rest ih =>
      intro state consistent matched
      obtain ⟨⟨room, pin⟩, later⟩ := matched
      have counted := pin_count_apply latest consistent op id
      have rest_ := ih _ (apply_booked consistent op).consistent later
      have taken : pinsTaken (op :: rest) id =
          pinsTaken rest id + if op.pinned = some id then 1 else 0 := by
        unfold pinsTaken
        cases isPin : op.pinned <;> simp [isPin, List.count_cons]
      have released : pinsReleased (op :: rest) id =
          pinsReleased rest id + if op.unpinned = some id then 1 else 0 := by
        unfold pinsReleased
        cases isUnpin : op.unpinned <;> simp [isUnpin, List.count_cons]
      have apart : op.pinned = some id → op.unpinned = none := by
        cases op <;> simp [CacheOp.pinned, CacheOp.unpinned]
      rw [List.foldl_cons, taken, released]
      change _ = (op.apply latest state).1.pinCount id + _ at rest_
      rw [counted] at rest_
      change (rest.foldl (cacheMachine latest).step (op.apply latest state).1).pinCount id +
        (pinsReleased rest id + _) = _
      change (rest.foldl (cacheMachine latest).step (op.apply latest state).1).pinCount id +
        pinsReleased rest id = _ at rest_
      by_cases isPin : op.pinned = some id
      · have small := room id isPin
        rw [if_pos isPin, Nat.mod_eq_of_lt small] at rest_
        rw [if_pos isPin, apart isPin, if_neg (by simp)]
        omega
      · rw [if_neg isPin] at rest_ ⊢
        by_cases isUnpin : op.unpinned = some id
        · have some_ := pin id isUnpin
          rw [if_pos isUnpin] at rest_ ⊢
          omega
        · rw [if_neg isUnpin] at rest_ ⊢
          omega
  have counted := from_any ops CacheState.default default_consistent matched
  rw [show CacheState.default.pinCount id = 0 from rfl, Nat.zero_add] at counted
  exact counted

structure BooksKept (latest : Int) (ops : List CacheOp) : Prop where
  agree : ∀ cacheKey inferenceId,
    refsHold ((cacheMachine latest).run ops).cacheRefs cacheKey inferenceId ↔
      inferenceId ∈ ((cacheMachine latest).run ops).lruIds cacheKey
  nonempty : ∀ inferenceId refs,
    ((cacheMachine latest).run ops).cacheRefs.lookup inferenceId = some refs → refs ≠ ∅
  /-- The next operation reports the models it leaves without a reference. -/
  reported : ∀ op : CacheOp, Reported op ((cacheMachine latest).run ops)
    (op.apply latest ((cacheMachine latest).run ops)).1
    (op.apply latest ((cacheMachine latest).run ops)).2
  recent : ∀ cacheKey,
    (((cacheMachine latest).run ops).lruIds cacheKey).Sublist (touches cacheKey ops)
  touched : ∀ inferenceId cacheKey lruSize ttlSeconds now, 0 < lruSize →
    ((((cacheMachine latest).run ops).touchLoad latest inferenceId cacheKey lruSize ttlSeconds
      now).1.lruIds cacheKey).head? = some inferenceId ∧
    ((((cacheMachine latest).run ops).touchLoad latest inferenceId cacheKey lruSize ttlSeconds
      now).1.lruIds cacheKey).length ≤ lruSize.toNat
  pinned : ∀ order now inferenceId, 0 < ((cacheMachine latest).run ops).pinCount inferenceId →
    ∀ cacheKey, (((cacheMachine latest).run ops).expire order now).1.entry cacheKey inferenceId =
      ((cacheMachine latest).run ops).entry cacheKey inferenceId
  counted : (cacheMachine latest).AdmittedRun PinMatched ops → ∀ inferenceId,
    ((cacheMachine latest).run ops).pinCount inferenceId + pinsReleased ops inferenceId =
      pinsTaken ops inferenceId

theorem run_books_kept (latest : Int) (ops : List CacheOp) : BooksKept latest ops where
  agree := (run_consistent latest ops).agree
  nonempty := (run_consistent latest ops).tidy
  reported := fun op => (apply_booked (run_consistent latest ops) op).reported
  recent := run_recent latest ops
  touched := by
    intro inferenceId cacheKey lruSize ttlSeconds now positive
    obtain ⟨size, rfl⟩ : ∃ size : Nat, lruSize = (size + 1 : Nat) := ⟨lruSize.toNat - 1, by omega⟩
    rw [(touch_load_booked (run_consistent latest ops) inferenceId cacheKey _ ttlSeconds now).2]
    exact ⟨rfl, List.length_take_le _ _⟩
  pinned := by
    intro order now inferenceId pins cacheKey
    rw [(expire_kept (run_consistent latest ops) order now).2, if_neg]
    exact fun isExpired => absurd (mem_expired.mp isExpired).1 (by omega)
  counted := run_counted latest

theorem run_pins (inferenceId : String) (count : Nat) :
    ((cacheMachine latest).run (List.replicate count (.pin inferenceId))).pinCount inferenceId =
      count % u32Limit := by
  induction count with
  | zero => rfl
  | succ count ih =>
    rw [List.replicate_succ', Machine.run, List.foldl_append]
    change (((cacheMachine latest).run _).pin inferenceId).pinCount inferenceId = _
    rw [pin_count_pin, if_pos rfl, ih, Nat.mod_add_mod]

/-- A model that dies is not reported, a pin after an unpin counts though they
cancel, and 2³² pins count as none. -/
theorem books_not_kept :
    (let before := (cacheMachine 0).run [.touchLoad "m" "k" 1 (-1) 0]
     let after := (CacheOp.removeEverywhere "m").apply 0 before
     before.refsNonEmpty "m" = true ∧ after.1.refsNonEmpty "m" = false ∧ after.2 = []) ∧
    ((cacheMachine 0).run [.unpin "m", .pin "m"]).pinCount "m" = 1 ∧
    ((cacheMachine 0).run (List.replicate u32Limit (.pin "m"))).pinCount "m" = 0 ∧
    (¬∀ (ops : List CacheOp) (op : CacheOp) (inferenceId : String),
      inferenceId ∈ (op.apply 0 ((cacheMachine 0).run ops)).2 ↔
        Referenced ((cacheMachine 0).run ops).Held inferenceId ∧
        ¬Referenced (op.apply 0 ((cacheMachine 0).run ops)).1.Held inferenceId) ∧
    ¬∀ (ops : List CacheOp) (inferenceId : String),
      (((cacheMachine 0).run ops).pinCount inferenceId : Int) =
        pinsTaken ops inferenceId - pinsReleased ops inferenceId := by
  refine ⟨by decide, by decide, by rw [run_pins, Nat.mod_self], fun exact_ => ?_, fun counts => ?_⟩
  · have reported := (exact_ [.touchLoad "m" "k" 1 (-1) 0] (.removeEverywhere "m") "m").mpr
      ⟨⟨"k", Finset.mem_insert_self "k" ∅⟩, fun held => ?_⟩
    · cases reported
    · obtain ⟨key, holds⟩ := held
      exact absurd holds (Finset.notMem_empty key)
  · exact absurd (counts [.unpin "m", .pin "m"] "m") (by decide)

end Panoptikon.Inferio
