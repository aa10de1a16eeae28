import Panoptikon.Foundation.Machine
import Panoptikon.Foundation.References
import Panoptikon.Inferio.CacheState

/-!
# The books of the cache

The references of a model and the recency lists of the cache keys are two
records of one relation. Every operation keeps them equal, reports the models
whose last reference it drops, and keeps the lists in the order of use.
-/

namespace Panoptikon.Inferio

open Foundation

def refsHold (cacheRefs : References) (cacheKey inferenceId : String) : Prop :=
  cacheKey ∈ (cacheRefs.lookup inferenceId).getD ∅

def Tidy (cacheRefs : References) : Prop :=
  ∀ inferenceId refs, cacheRefs.lookup inferenceId = some refs → refs ≠ ∅

/-- References are gone, the others are as they were, and the models left without
one are reported. -/
structure Dropped (gone : String → String → Prop) (before after : References)
    (reported : List String) : Prop where
  tidy : Tidy after
  held : ∀ cacheKey inferenceId, refsHold after cacheKey inferenceId ↔
    refsHold before cacheKey inferenceId ∧ ¬gone cacheKey inferenceId
  released : Releases (refsHold before) (refsHold after) reported

section References

variable {cacheRefs before between after : References} {cacheKey inferenceId : String}
  {first second : String → String → Prop} {reported later : List String}

theorem referenced_iff (tidy : Tidy cacheRefs) :
    Referenced (refsHold cacheRefs) inferenceId ↔ (cacheRefs.lookup inferenceId).isSome := by
  unfold Referenced refsHold
  cases stored : cacheRefs.lookup inferenceId with
  | none => simp
  | some refs =>
    obtain ⟨key, member⟩ := Finset.nonempty_iff_ne_empty.mpr (tidy inferenceId refs stored)
    simpa using ⟨key, member⟩

theorem Dropped.refl (tidy : Tidy cacheRefs) : Dropped (fun _ _ => False) cacheRefs cacheRefs [] where
  tidy := tidy
  held := by simp
  released := Releases.refl _

theorem Dropped.trans (early : Dropped first before between reported) (late : Dropped second between after later) :
    Dropped (fun key id => first key id ∨ second key id) before after (reported ++ later) where
  tidy := late.tidy
  held := by
    intro key id
    rw [late.held, early.held, not_or, and_assoc]
  released := early.released.trans late.released

theorem Dropped.congr {gone : String → String → Prop} (dropped : Dropped first before after reported)
    (same : ∀ key id, refsHold before key id → (gone key id ↔ first key id)) :
    Dropped gone before after reported where
  tidy := dropped.tidy
  held := by
    intro key id
    rw [dropped.held]
    exact and_congr_right fun holds => not_congr (same key id holds).symm
  released := dropped.released

theorem drop_reference_dropped (tidy : Tidy cacheRefs) (cacheKey inferenceId : String) :
    Dropped (fun key id => key = cacheKey ∧ id = inferenceId) cacheRefs
      (dropReference cacheKey inferenceId cacheRefs).1
      (dropReference cacheKey inferenceId cacheRefs).2.toList := by
  unfold dropReference
  cases stored : cacheRefs.lookup inferenceId with
  | none =>
    refine (Dropped.refl tidy).congr fun key id holds => ?_
    simp only [iff_false, not_and]
    rintro - rfl
    simp [refsHold, stored] at holds
  | some refs =>
    dsimp only
    split
    · rename_i emptied
      have onlyKey : ∀ key, key ∈ refs → key = cacheKey := by
        intro key member
        by_contra other
        have kept : key ∈ refs.erase cacheKey := Finset.mem_erase.mpr ⟨other, member⟩
        rw [emptied] at kept
        exact absurd kept (Finset.notMem_empty key)
      have held : ∀ key id, refsHold (cacheRefs.erase inferenceId) key id ↔
          refsHold cacheRefs key id ∧ ¬(key = cacheKey ∧ id = inferenceId) := by
        intro key id
        unfold refsHold
        rw [KeyedMap.lookup_erase_eq]
        split_ifs with same
        · subst same
          rw [stored]
          simp only [Option.getD_none, Finset.notMem_empty, Option.getD_some, and_true, false_iff,
            not_and, not_not]
          exact onlyKey key
        · simp [same]
      have tidy' : Tidy (cacheRefs.erase inferenceId) := by
        intro id some_ found
        rw [KeyedMap.lookup_erase_eq] at found
        split_ifs at found
        exact tidy id some_ found
      refine ⟨tidy', held, fun key id holds => ((held key id).mp holds).1, by simp, fun id => ?_⟩
      rw [referenced_iff tidy, referenced_iff tidy', KeyedMap.lookup_erase_eq]
      simp only [Option.toList_some, List.mem_singleton]
      split_ifs with same
      · subst same
        simp [stored]
      · cases cacheRefs.lookup id <;> simp [same]
    · rename_i left
      have held : ∀ key id, refsHold (cacheRefs.insert inferenceId (refs.erase cacheKey)) key id ↔
          refsHold cacheRefs key id ∧ ¬(key = cacheKey ∧ id = inferenceId) := by
        intro key id
        unfold refsHold
        rw [KeyedMap.lookup_insert_eq]
        split_ifs with same
        · subst same
          rw [stored]
          simp [and_comm]
        · simp [same]
      have tidy' : Tidy (cacheRefs.insert inferenceId (refs.erase cacheKey)) := by
        intro id some_ found
        rw [KeyedMap.lookup_insert_eq] at found
        split_ifs at found
        · cases found
          exact left
        · exact tidy id some_ found
      refine ⟨tidy', held, fun key id holds => ((held key id).mp holds).1, by simp, fun id => ?_⟩
      rw [referenced_iff tidy, referenced_iff tidy', KeyedMap.lookup_insert_eq]
      split_ifs with same
      · simp
      · cases cacheRefs.lookup id <;> simp

theorem drop_references_dropped (cacheKey : String) (ids : List String) :
    ∀ {cacheRefs : References}, Tidy cacheRefs →
      Dropped (fun key id => key = cacheKey ∧ id ∈ ids) cacheRefs
        (dropReferences cacheKey ids cacheRefs).1 (dropReferences cacheKey ids cacheRefs).2 := by
  induction ids with
  | nil => exact fun tidy => (Dropped.refl tidy).congr (by simp)
  | cons inferenceId rest ih =>
    intro cacheRefs tidy
    have first := drop_reference_dropped tidy cacheKey inferenceId
    refine (first.trans (ih first.tidy)).congr fun key id _ => ?_
    rw [List.mem_cons, and_or_left]

end References

section Recency

variable {lru : Lru} {cacheRefs : References} {cacheKey : String} {lruSize : Int}

theorem remove_lru_entries {lru rest : Lru} {inferenceId : String} {expiration : Expiration}
    (popped : lru.removeLru = some (inferenceId, expiration, rest)) :
    lru.entries = rest.entries ++ [⟨inferenceId, expiration⟩] := by
  simp only [LruCache.removeLru, Option.map_eq_some_iff, Prod.mk.injEq] at popped
  obtain ⟨last, isLast, rfl, rfl, rfl⟩ := popped
  have shape := List.dropLast_append_getLast? last isLast
  have fresh : last.1 ∉ (lru.entries.dropLast).keys := by
    have nodup := lru.nodupKeys
    rw [← shape, List.NodupKeys, List.keys, List.map_append, List.nodup_append] at nodup
    intro member
    exact nodup.2.2 _ member last.1 (by simp) rfl
  have erased : (lru.erase last.1).entries = lru.entries.dropLast := by
    change List.kerase last.1 lru.entries = _
    conv_lhs => rw [← shape]
    rw [List.kerase_append_right fresh, List.kerase_cons_eq rfl, List.append_nil]
  rw [erased]
  exact shape.symm

/-- The loop leaves the most recent entries, and drops the references of the
others. -/
theorem evict_spec (cacheKey : String) (lruSize : Int) (turns : Nat) :
    ∀ {lru : Lru} {cacheRefs : References}, lru.entries.length ≤ turns → Tidy cacheRefs →
      (evict cacheKey lruSize turns lru cacheRefs).1.entries = lru.entries.take lruSize.toNat ∧
      Dropped (fun key id => key = cacheKey ∧ id ∈ (lru.entries.drop lruSize.toNat).keys) cacheRefs
        (evict cacheKey lruSize turns lru cacheRefs).2.1
        (evict cacheKey lruSize turns lru cacheRefs).2.2 := by
  induction turns with
  | zero =>
    intro lru cacheRefs bound tidy
    have none_ : lru.entries = [] := List.length_eq_zero_iff.mp (by omega)
    refine ⟨by simp [evict, none_], (Dropped.refl tidy).congr fun key id _ => ?_⟩
    simp [none_]
  | succ turns ih =>
    intro lru cacheRefs bound tidy
    unfold evict
    split
    · rename_i overrun
      cases popped : lru.removeLru with
      | none =>
        have none_ := LruCache.remove_lru_eq_none popped
        refine ⟨by simp [none_], (Dropped.refl tidy).congr fun key id _ => ?_⟩
        simp [none_]
      | some taken =>
        obtain ⟨evicted, expiration, rest⟩ := taken
        have shape := remove_lru_entries popped
        have length : lru.entries.length = rest.entries.length + 1 := by
          rw [shape, List.length_append, List.length_singleton]
        have first := drop_reference_dropped tidy cacheKey evicted
        obtain ⟨kept, later⟩ := @ih rest _ (by omega) first.tidy
        have short : lruSize.toNat ≤ rest.entries.length := by omega
        refine ⟨?_, (first.trans later).congr fun key id _ => ?_⟩
        · rw [shape, List.take_append_of_le_length short]
          exact kept
        · rw [shape, List.drop_append_of_le_length short, ← and_or_left]
          simp [List.keys, or_comm]
    · rename_i within
      have long : lru.entries.length ≤ lruSize.toNat := by omega
      refine ⟨(List.take_of_length_le long).symm, (Dropped.refl tidy).congr fun key id _ => ?_⟩
      simp [List.drop_of_length_le long]

end Recency

namespace CacheState

def lruOf (state : CacheState) (cacheKey : String) : Lru :=
  (state.lruCaches.lookup cacheKey).getD ∅

/-- The models of a cache key, the most recent first. -/
def lruIds (state : CacheState) (cacheKey : String) : List String := (state.lruOf cacheKey).keys

def entry (state : CacheState) (cacheKey inferenceId : String) : Option Expiration :=
  (state.lruOf cacheKey).lookup inferenceId

abbrev Held (state : CacheState) : String → String → Prop := refsHold state.cacheRefs

structure Consistent (state : CacheState) : Prop where
  tidy : Tidy state.cacheRefs
  agree : ∀ cacheKey inferenceId,
    state.Held cacheKey inferenceId ↔ inferenceId ∈ state.lruIds cacheKey

/-- An operation that takes no reference. -/
structure Kept (before after : CacheState) (reported : List String) : Prop where
  consistent : after.Consistent
  released : Releases before.Held after.Held reported
  pins : after.pins = before.pins

section

variable {state before after : CacheState} {cacheKey inferenceId : String} {reported : List String}

theorem mem_lru_ids : inferenceId ∈ state.lruIds cacheKey ↔ (state.entry cacheKey inferenceId).isSome := by
  unfold entry
  rw [AList.lookup_isSome, AList.mem_keys]
  rfl

theorem lru_of_insert (state : CacheState) (cacheKey : String) (lru : Lru) (cacheRefs : References)
    (pins : KeyedMap String Nat) (key : String) :
    (CacheState.mk (state.lruCaches.insert cacheKey lru) cacheRefs pins).lruOf key =
      if key = cacheKey then lru else state.lruOf key := by
  unfold lruOf
  rw [KeyedMap.lookup_insert_eq]
  split <;> rfl

theorem consistent_of_dropped {gone : String → String → Prop} (consistent : before.Consistent)
    (dropped : Dropped gone before.cacheRefs after.cacheRefs reported)
    (lists : ∀ key id, id ∈ after.lruIds key ↔ id ∈ before.lruIds key ∧ ¬gone key id) : after.Consistent where
  tidy := dropped.tidy
  agree := by
    intro key id
    rw [lists, ← consistent.agree]
    exact dropped.held key id

theorem resize_ids (consistent : state.Consistent) (cacheKey : String) (lruSize : Int) :
    Kept state (state.resize cacheKey lruSize).1 (state.resize cacheKey lruSize).2 ∧
    ∀ key, (state.resize cacheKey lruSize).1.lruIds key =
      if key = cacheKey then (state.lruIds cacheKey).take lruSize.toNat else state.lruIds key := by
  unfold resize
  cases stored : state.lruCaches.lookup cacheKey with
  | none =>
    refine ⟨⟨consistent, Releases.refl _, rfl⟩, fun key => ?_⟩
    dsimp only
    split_ifs with same
    · subst same
      simp [lruIds, lruOf, stored]
    · rfl
  | some lru =>
    have isLru : state.lruIds cacheKey = lru.keys := by simp [lruIds, lruOf, stored]
    obtain ⟨kept, dropped⟩ :=
      evict_spec cacheKey lruSize lru.entries.length (Nat.le_refl _) consistent.tidy
    dsimp only
    have lists : ∀ key, (CacheState.mk (state.lruCaches.insert cacheKey
        (evict cacheKey lruSize lru.entries.length lru state.cacheRefs).1)
        (evict cacheKey lruSize lru.entries.length lru state.cacheRefs).2.1 state.pins).lruIds key =
        if key = cacheKey then (state.lruIds cacheKey).take lruSize.toNat
        else state.lruIds key := by
      intro key
      rw [lruIds, lru_of_insert]
      split
      · rw [isLru, AList.keys, kept]
        simp [AList.keys, List.keys, List.map_take]
      · rfl
    refine ⟨⟨consistent_of_dropped consistent dropped fun key id => ?_, dropped.released, rfl⟩, lists⟩
    rw [lists]
    split_ifs with same
    · subst same
      have split := List.take_append_drop lruSize.toNat (state.lruIds key)
      have nodup : (state.lruIds key).Nodup := AList.keys_nodup _
      have dropKeys : (lru.entries.drop lruSize.toNat).keys =
          (state.lruIds key).drop lruSize.toNat := by
        rw [isLru]
        simp [AList.keys, List.keys, List.map_drop]
      rw [dropKeys]
      rw [← split, List.nodup_append] at nodup
      constructor
      · exact fun member => ⟨List.mem_of_mem_take member, fun gone =>
          nodup.2.2 id member id gone.2 rfl⟩
      · rintro ⟨member, stays⟩
        rw [← split, List.mem_append] at member
        exact member.resolve_right fun gone => stays ⟨rfl, gone⟩
    · simp [same]

/-- The state when `touch_load` has put the model in front. -/
def touched (latest : Int) (state : CacheState) (inferenceId cacheKey : String)
    (ttlSeconds now : Int) : CacheState where
  cacheRefs := state.cacheRefs.insert inferenceId
    (insert cacheKey ((state.cacheRefs.lookup inferenceId).getD ∅))
  lruCaches := state.lruCaches.insert cacheKey
    ((state.lruOf cacheKey).insert inferenceId (Expiration.new latest ttlSeconds now))
  pins := state.pins

theorem touched_ids (latest : Int) (state : CacheState) (inferenceId cacheKey : String)
    (ttlSeconds now : Int) (key : String) : (state.touched latest inferenceId cacheKey ttlSeconds now).lruIds key =
      if key = cacheKey then inferenceId :: (state.lruIds cacheKey).erase inferenceId
      else state.lruIds key := by
  rw [lruIds, touched, lru_of_insert]
  split
  · exact AList.keys_insert (state.lruOf cacheKey)
  · rfl

theorem touched_held (latest : Int) (state : CacheState) (inferenceId cacheKey : String)
    (ttlSeconds now : Int) (key id : String) :
    (state.touched latest inferenceId cacheKey ttlSeconds now).Held key id ↔
      state.Held key id ∨ (key = cacheKey ∧ id = inferenceId) := by
  unfold Held refsHold touched
  rw [KeyedMap.lookup_insert_eq]
  split_ifs with same
  · subst same
    simp [or_comm]
  · simp [same]

theorem touched_consistent (latest : Int) (consistent : state.Consistent)
    (inferenceId cacheKey : String) (ttlSeconds now : Int) :
    (state.touched latest inferenceId cacheKey ttlSeconds now).Consistent where
  tidy := by
    intro id refs found
    rw [touched, KeyedMap.lookup_insert_eq] at found
    split_ifs at found
    · cases found
      exact Finset.insert_ne_empty _ _
    · exact consistent.tidy id refs found
  agree := by
    intro key id
    rw [touched_held, touched_ids, consistent.agree]
    split_ifs with same
    · subst same
      rw [List.mem_cons]
      by_cases isId : id = inferenceId
      · simp [isId]
      · simp [isId, List.mem_erase_of_ne isId]
    · simp [same]

theorem remove_kept (consistent : state.Consistent) (cacheKey inferenceId : String) :
    Kept state (state.remove cacheKey inferenceId).1
      (state.remove cacheKey inferenceId).2.unload.toList ∧
    ∀ key id, (state.remove cacheKey inferenceId).1.entry key id =
      if key = cacheKey ∧ id = inferenceId then none else state.entry key id := by
  have absent : state.entry cacheKey inferenceId = none → ∀ key id, state.entry key id =
      if key = cacheKey ∧ id = inferenceId then none else state.entry key id := by
    intro missing key id
    split_ifs with same
    · rw [same.1, same.2, missing]
    · rfl
  unfold remove
  cases stored : state.lruCaches.lookup cacheKey with
  | none =>
    refine ⟨⟨consistent, Releases.refl _, rfl⟩, absent ?_⟩
    simp [entry, lruOf, stored]
  | some lru =>
    have isLru : state.lruOf cacheKey = lru := by simp [lruOf, stored]
    dsimp only
    split
    · have dropped := drop_reference_dropped consistent.tidy cacheKey inferenceId
      have entries : ∀ key id, (CacheState.mk (state.lruCaches.insert cacheKey
          (lru.erase inferenceId)) (dropReference cacheKey inferenceId state.cacheRefs).1
          state.pins).entry key id =
          if key = cacheKey ∧ id = inferenceId then none else state.entry key id := by
        intro key id
        rw [entry, lru_of_insert]
        by_cases isKey : key = cacheKey
        · subst isKey
          rw [if_pos rfl, KeyedMap.lookup_erase_eq, entry, isLru]
          simp
        · simp [isKey, entry]
      refine ⟨⟨consistent_of_dropped consistent dropped fun key id => ?_, dropped.released, rfl⟩,
        entries⟩
      rw [mem_lru_ids, mem_lru_ids, entries]
      split_ifs with same
      · simp [same]
      · simp [same]
    · rename_i missing
      refine ⟨⟨consistent, Releases.refl _, rfl⟩, absent ?_⟩
      rw [entry, isLru]
      simpa using missing

theorem clear_kept (consistent : state.Consistent) (cacheKey : String) :
    Kept state (state.clear cacheKey).1 (state.clear cacheKey).2.2 ∧ ∀ key, (state.clear cacheKey).1.lruIds key =
      if key = cacheKey then [] else state.lruIds key := by
  unfold clear
  cases stored : state.lruCaches.lookup cacheKey with
  | none =>
    refine ⟨⟨consistent, Releases.refl _, rfl⟩, fun key => ?_⟩
    dsimp only
    split_ifs with same
    · subst same
      simp [lruIds, lruOf, stored]
    · rfl
  | some lru =>
    have isLru : state.lruIds cacheKey = lru.keys := by simp [lruIds, lruOf, stored]
    have dropped := drop_references_dropped cacheKey lru.entries.keys.reverse consistent.tidy
    dsimp only
    have lists : ∀ key, (CacheState.mk (state.lruCaches.erase cacheKey)
        (dropReferences cacheKey lru.entries.keys.reverse state.cacheRefs).1 state.pins).lruIds key =
        if key = cacheKey then [] else state.lruIds key := by
      intro key
      unfold lruIds lruOf
      rw [KeyedMap.lookup_erase_eq]
      split_ifs with same
      · rfl
      · rfl
    refine ⟨⟨consistent_of_dropped consistent dropped fun key id => ?_, dropped.released, rfl⟩, lists⟩
    rw [lists]
    split_ifs with same
    · subst same
      simp [isLru, AList.keys]
    · simp [same]

theorem remove_all_kept (pairs : List (String × String)) : ∀ {state : CacheState},
    state.Consistent → Kept state (removeAll pairs state).1 (removeAll pairs state).2 ∧
      ∀ key id, (removeAll pairs state).1.entry key id =
        if (key, id) ∈ pairs then none else state.entry key id := by
  induction pairs with
  | nil =>
    intro state consistent
    exact ⟨⟨consistent, Releases.refl _, rfl⟩, by simp [removeAll]⟩
  | cons pair rest ih =>
    intro state consistent
    obtain ⟨cacheKey, inferenceId⟩ := pair
    obtain ⟨kept, entries⟩ := remove_kept consistent cacheKey inferenceId
    obtain ⟨keptRest, entriesRest⟩ := ih kept.consistent
    refine ⟨⟨keptRest.consistent, kept.released.trans keptRest.released,
      keptRest.pins.trans kept.pins⟩, fun key id => ?_⟩
    unfold removeAll
    dsimp only
    rw [entriesRest, entries]
    simp only [List.mem_cons, Prod.mk.injEq]
    split_ifs <;> tauto

theorem remove_ids (state : CacheState) (cacheKey inferenceId key : String) :
    ((state.remove cacheKey inferenceId).1.lruIds key).Sublist (state.lruIds key) := by
  unfold remove
  cases stored : state.lruCaches.lookup cacheKey with
  | none => exact List.Sublist.refl _
  | some lru =>
    dsimp only
    split
    · change (AList.keys (lruOf _ key)).Sublist _
      rw [lru_of_insert]
      split_ifs with same
      · subst same
        rw [AList.keys_erase, lruIds, lruOf, stored]
        exact List.erase_sublist
      · exact List.Sublist.refl _
    · exact List.Sublist.refl _

theorem remove_all_ids (pairs : List (String × String)) (key : String) :
    ∀ state : CacheState, ((removeAll pairs state).1.lruIds key).Sublist (state.lruIds key) := by
  induction pairs with
  | nil => exact fun state => List.Sublist.refl _
  | cons pair rest ih =>
    exact fun state => (ih (state.remove pair.1 pair.2).1).trans (remove_ids state _ _ key)

theorem mem_expired {order : WalkOrder (Σ _ : String, Lru)} {now : Int} :
    (cacheKey, inferenceId) ∈ state.expired order now ↔
      state.pinCount inferenceId = 0 ∧
        ∃ instant, state.entry cacheKey inferenceId = some (.atInstant instant) ∧ instant < now := by
  have stored : ∀ lru expiration, (⟨cacheKey, lru⟩ : Σ _ : String, Lru) ∈ state.lruCaches.entries →
      (⟨inferenceId, expiration⟩ ∈ lru.entries ↔
        state.entry cacheKey inferenceId = some expiration) := by
    intro lru expiration member
    have isLru : state.lruOf cacheKey = lru := by
      rw [lruOf, AList.mem_lookup_iff.mpr member]
      rfl
    rw [entry, isLru, ← Option.mem_def, AList.mem_lookup_iff]
  unfold expired
  simp only [List.mem_flatMap, (order.perm _).mem_iff, List.mem_filterMap, List.mem_reverse]
  constructor
  · rintro ⟨⟨key, lru⟩, inCaches, ⟨id, expiration⟩, inLru, isPair⟩
    dsimp only at isPair
    split_ifs at isPair with pinned
    split at isPair
    · cases isPair
    · split_ifs at isPair with past
      cases isPair
      exact ⟨by omega, _, (stored lru _ inCaches).mp inLru, past⟩
  · rintro ⟨unpinned, instant, found, past⟩
    cases caches : state.lruCaches.lookup cacheKey with
    | none => simp [entry, lruOf, caches] at found
    | some lru =>
      have inCaches : (⟨cacheKey, lru⟩ : Σ _ : String, Lru) ∈ state.lruCaches.entries :=
        AList.mem_lookup_iff.mp caches
      refine ⟨⟨cacheKey, lru⟩, inCaches, ⟨inferenceId, .atInstant instant⟩,
        (stored lru _ inCaches).mpr found, ?_⟩
      simp [unpinned, past]

theorem expire_kept (consistent : state.Consistent) (order : WalkOrder (Σ _ : String, Lru)) (now : Int) :
    Kept state (state.expire order now).1 (state.expire order now).2 ∧
    ∀ key id, (state.expire order now).1.entry key id =
      if (key, id) ∈ state.expired order now then none else state.entry key id :=
  remove_all_kept _ consistent

@[simp] theorem lru_ids_unpin (state : CacheState) (inferenceId key : String) :
    (state.unpin inferenceId).lruIds key = state.lruIds key := by
  unfold unpin
  split
  · rfl
  · split <;> rfl

@[simp] theorem cache_refs_unpin (state : CacheState) (inferenceId : String) :
    (state.unpin inferenceId).cacheRefs = state.cacheRefs := by
  unfold unpin
  split
  · rfl
  · split <;> rfl

theorem pin_count_pin (state : CacheState) (inferenceId id : String) : (state.pin inferenceId).pinCount id =
      if id = inferenceId then (state.pinCount inferenceId + 1) % u32Limit
      else state.pinCount id := by
  unfold pinCount pin
  rw [KeyedMap.lookup_insert_eq]
  split <;> rfl

theorem pin_count_unpin (state : CacheState) (inferenceId id : String) : (state.unpin inferenceId).pinCount id =
      if id = inferenceId then state.pinCount inferenceId - 1 else state.pinCount id := by
  unfold pinCount unpin
  cases stored : state.pins.lookup inferenceId with
  | none =>
    dsimp only
    split_ifs with same
    · subst same
      simp [stored]
    · rfl
  | some count =>
    dsimp only
    split_ifs with last same same
    · subst same
      rw [KeyedMap.lookup_erase_eq, if_pos rfl]
      simp [last]
    · rw [KeyedMap.lookup_erase_eq, if_neg same]
    · subst same
      rw [KeyedMap.lookup_insert_eq, if_pos rfl]
      rfl
    · rw [KeyedMap.lookup_insert_eq, if_neg same]

section Restore

variable (latest : Int) (state : CacheState) (inferenceId cacheKey : String) (ttlSeconds now : Int)

theorem lru_ids_unpin_restore (key : String) :
    (state.unpinRestore latest inferenceId cacheKey ttlSeconds now).lruIds key =
      state.lruIds key := by
  rw [← lru_ids_unpin state inferenceId key]
  unfold unpinRestore
  dsimp only
  split
  · rfl
  · rename_i lru stored
    rw [lruIds, lru_of_insert]
    split_ifs with same
    · subst same
      rw [AList.keys_replace, lruIds, lruOf, stored]
      rfl
    · rfl

theorem cache_refs_unpin_restore :
    (state.unpinRestore latest inferenceId cacheKey ttlSeconds now).cacheRefs = state.cacheRefs := by
  rw [← cache_refs_unpin state inferenceId]
  unfold unpinRestore
  dsimp only
  split <;> rfl

theorem pin_count_unpin_restore (id : String) :
    (state.unpinRestore latest inferenceId cacheKey ttlSeconds now).pinCount id =
      (state.unpin inferenceId).pinCount id := by
  unfold unpinRestore
  dsimp only
  split <;> rfl

end Restore

theorem lru_of_remove_everywhere (state : CacheState) (inferenceId key : String) :
    (state.removeEverywhere inferenceId).lruOf key = (state.lruOf key).erase inferenceId := by
  have found : (state.removeEverywhere inferenceId).lruCaches.lookup key =
      (state.lruCaches.lookup key).map fun lru => lru.erase inferenceId := by
    exact @List.dlookup_map₂ _ _ (fun _ => Lru) (fun _ => Lru) state.lruCaches.entries
      (fun _ lru => lru.erase inferenceId) key
  rw [lruOf, found, lruOf]
  cases state.lruCaches.lookup key <;> rfl

theorem remove_everywhere_held (state : CacheState) (inferenceId key id : String) :
    (state.removeEverywhere inferenceId).Held key id ↔ state.Held key id ∧ id ≠ inferenceId := by
  unfold Held refsHold removeEverywhere
  dsimp only
  rw [KeyedMap.lookup_erase_eq]
  split_ifs with same
  · simp [same]
  · simp [same]

theorem remove_everywhere_consistent (consistent : state.Consistent) (inferenceId : String) :
    (state.removeEverywhere inferenceId).Consistent where
  tidy := by
    intro id refs found
    rw [removeEverywhere, KeyedMap.lookup_erase_eq] at found
    split_ifs at found
    exact consistent.tidy id refs found
  agree := by
    intro key id
    change _ ↔ id ∈ ((state.removeEverywhere inferenceId).lruOf key).keys
    rw [remove_everywhere_held, consistent.agree, lru_of_remove_everywhere, AList.keys_erase,
      (AList.keys_nodup _).mem_erase_iff, and_comm]
    rfl

end

end CacheState

end Panoptikon.Inferio
