import Panoptikon.SearchCache.Gathering

/-!
# The two structures agree after every run

`Represents` is the representation invariant as a reader of the cache would
state it. It follows from `Kept`, the form the single steps preserve: the
structures are consistent, no group is empty and the charge is within budget.
Each operation is described once (`insert_rows_cases` and its siblings) and
every later result about runs starts from these descriptions.
-/

namespace Panoptikon.SearchCache

open Foundation Foundation.Words Foundation.Intervals Foundation.KeyedMap

variable {Row : Type}

structure Kept (state : CacheState Row) : Prop where
  consistent : Consistent state
  inhabited : NoEmptyGroup state
  affordable : state.usedBytes ≤ state.budgetBytes

/-- The span list and the group index name the same spans and no group is
empty; the non-empty spans of a group are pairwise disjoint and none crosses a
multiple of `spanRows`; the charge is the exact sum and within budget. -/
structure Represents (state : CacheState Row) : Prop where
  keys : ∀ query start, (⟨query, start⟩ : SpanKey) ∈ state.lru ↔
    ∃ group, state.groups.lookup query = some group ∧ start ∈ group.starts
  inhabited : ∀ query group, state.groups.lookup query = some group →
    ∃ start, start ∈ group.starts
  disjoint : ∀ query left right leftSpan rightSpan,
    state.lru.lookup ⟨query, left⟩ = some leftSpan →
    state.lru.lookup ⟨query, right⟩ = some rightSpan → left ≠ right →
    0 < leftSpan.rowLen → 0 < rightSpan.rowLen →
    left + leftSpan.rowLen ≤ right ∨ right + rightSpan.rowLen ≤ left
  uncrossed : ∀ query start span, state.lru.lookup ⟨query, start⟩ = some span →
    ∀ cell, ¬(start < cell * spanRows ∧ cell * spanRows < start + span.rowLen)
  charge : state.usedBytes =
    (state.lru.entries.map fun entry => entry.2.bytes).sum +
      (state.groups.entries.map fun entry => entry.2.bytes).sum
  affordable : state.usedBytes ≤ state.budgetBytes

variable {state : CacheState Row}

theorem Kept.represents (kept : Kept state) : Represents state where
  keys query start := kept.consistent.spanKeys ⟨query, start⟩
  inhabited := kept.inhabited
  disjoint query left right leftSpan rightSpan storedLeft storedRight different _ _ := by
    rcases Nat.lt_or_gt_of_ne different with below | above
    · exact Or.inl (kept.consistent.separated query left right leftSpan rightSpan storedLeft
        storedRight below)
    · exact Or.inr (kept.consistent.separated query right left rightSpan leftSpan storedRight
        storedLeft above)
  uncrossed query start span stored cell := by
    rintro ⟨after, before⟩
    have inCell := kept.consistent.aligned query start span stored
    have next : start / spanRows + 1 ≤ cell := by
      have quotient : start / spanRows < cell := Nat.div_lt_of_lt_mul (by
        rw [Nat.mul_comm]
        exact after)
      omega
    have bound := Nat.mul_le_mul_right spanRows next
    omega
  charge := kept.consistent.ledger
  affordable := kept.affordable

/-- The state an insert fills its group in: the one at hand, when the group is
already of the insert's generation, or a fresh group in its place. -/
structure Prepared (state : CacheState Row) (query : QueryKey) (snapshot : EpochSnapshot)
    (base : CacheState Row) (group : GroupIndex) : Prop where
  consistent : Consistent base
  located : base.groups.lookup query = some group
  stamp : group.stamp = snapshot
  budget : base.budgetBytes = state.budgetBytes
  origin : base = state ∨ Fresh state query snapshot base

theorem Prepared.others_inhabited {state base : CacheState Row} {query : QueryKey}
    {snapshot : EpochSnapshot} {group : GroupIndex}
    (prepared : Prepared state query snapshot base group) (inhabited : NoEmptyGroup state)
    {other : QueryKey} (different : other ≠ query) {stored : GroupIndex}
    (located : base.groups.lookup other = some stored) : ∃ start, start ∈ stored.starts := by
  rcases prepared.origin with rfl | fresh
  · exact inhabited other stored located
  · rw [fresh.otherGroups other different] at located
    exact inhabited other stored located

theorem reconcile_epochs_prepared (consistent : Consistent state)
    (query : QueryKey) (snapshot : EpochSnapshot) : state.reconcileEpochs query snapshot = (state, false) ∨
    ∃ base group, state.reconcileEpochs query snapshot = (base, true) ∧
      Prepared state query snapshot base group := by
  rcases reconcile_epochs_cases consistent query snapshot with refused |
    ⟨group, located, stamp, accepted⟩ | ⟨base, accepted, fresh⟩
  · exact Or.inl refused
  · exact Or.inr ⟨state, group, accepted, consistent, located, stamp, rfl, Or.inl rfl⟩
  · obtain ⟨group, located, stamp, _⟩ := fresh.group
    exact Or.inr ⟨base, group, accepted, fresh.consistent, located, stamp, fresh.budget,
      Or.inr fresh⟩

section Insert

variable [JsonSized Row] {state : CacheState Row}

theorem insert_rows_cases (consistent : Consistent state) (query : QueryKey)
    (snapshot : EpochSnapshot) (offset : UInt64) (executedLimit : Option UInt64) (rows : List Row) :
    insertRows state query snapshot offset executedLimit rows = state ∨
    ∃ base group, state.budgetBytes ≠ 0 ∧ Prepared state query snapshot base group ∧
      state.reconcileEpochs query snapshot = (base, true) ∧
      insertRows state query snapshot offset executedLimit rows =
        (fillGroup base query offset.toNat (executedLimit.map UInt64.toNat) rows).evictToBudget ∧
      Filled base query group offset.toNat (executedLimit.map UInt64.toNat) rows
        (fillGroup base query offset.toNat (executedLimit.map UInt64.toNat) rows) := by
  by_cases disabled : state.budgetBytes = 0
  · left
    simp [insertRows, disabled]
  · rcases reconcile_epochs_prepared consistent query snapshot with refused |
      ⟨base, group, accepted, prepared⟩
    · left
      simp [insertRows, disabled, refused]
    · right
      refine ⟨base, group, disabled, prepared, accepted, ?_, ?_⟩
      · simp [insertRows, disabled, accepted]
      · exact fill_group prepared.consistent prepared.located (word_le offset) _ rows

/-- An insert of a count does nothing, or puts the count at position zero and
evicts. -/
theorem insert_count_cases (consistent : Consistent state) (query : QueryKey)
    (snapshot : EpochSnapshot) (total : Int) : insertCount state query snapshot total = state ∨
    ∃ base group, Prepared state query snapshot base group ∧
      insertCount state query snapshot total =
        (base.storeSpan ⟨query, 0⟩ (.count total)).evictToBudget ∧
      Consistent (base.storeSpan ⟨query, 0⟩ (.count total)) := by
  by_cases disabled : state.budgetBytes = 0
  · left
    simp [insertCount, disabled]
  · rcases reconcile_epochs_prepared consistent query snapshot with refused |
      ⟨base, group, accepted, prepared⟩
    · left
      simp [insertCount, disabled, refused]
    · right
      refine ⟨base, group, prepared, ?_, ?_⟩
      · simp [insertCount, disabled, accepted]
      · apply store_span_consistent prepared.consistent prepared.located
        · intro start span _
          exact Or.inr (Nat.zero_le _)
        · simp [SpanValue.rowLen]

end Insert

/-- Nothing stored and nothing charged. -/
structure Emptied (state : CacheState Row) : Prop where
  lru : state.lru = ∅
  groups : state.groups = ∅
  used : state.usedBytes = 0

theorem set_budget_mb_cases (state : CacheState Row) (sizeMb : UInt64) : Emptied (setBudgetMb state sizeMb) ∨
    ∃ budget, setBudgetMb state sizeMb =
      CacheState.evictToBudget { state with budgetBytes := budget } := by
  unfold setBudgetMb
  dsimp only
  split_ifs
  · exact Or.inl ⟨rfl, rfl, rfl⟩
  · exact Or.inr ⟨_, rfl⟩

theorem set_budget_limit_mb_cases (state : CacheState Row) (limitMb : UInt64) :
    (∃ limit, setBudgetLimitMb state limitMb = { state with limitBytes := limit }) ∨
    ∃ budget limit, setBudgetLimitMb state limitMb =
      CacheState.evictToBudget { state with budgetBytes := budget, limitBytes := limit } := by
  unfold setBudgetLimitMb
  dsimp only
  split_ifs
  · exact Or.inr ⟨_, _, rfl⟩
  · exact Or.inl ⟨_, rfl⟩

theorem clear_cases (state : CacheState Row) (indexDb userDataDb : Option String) :
    (Emptied (clear state indexDb userDataDb)) ∨
    ∃ queries : List QueryKey,
      clear state indexDb userDataDb = queries.foldl CacheState.dropGroup state := by
  unfold clear
  split_ifs
  · exact Or.inl ⟨rfl, rfl, rfl⟩
  · exact Or.inr ⟨_, rfl⟩

theorem drop_groups_induction (Invariant : CacheState Row → Prop)
    (dropped : ∀ state query, Invariant state → Invariant (state.dropGroup query))
    (queries : List QueryKey) (state : CacheState Row) (holds : Invariant state) :
    Invariant (queries.foldl CacheState.dropGroup state) := by
  induction queries generalizing state with
  | nil => exact holds
  | cons query rest ih => exact ih (state.dropGroup query) (dropped state query holds)

theorem Kept.evict (consistent : Consistent state) (inhabited : NoEmptyGroup state) : Kept state.evictToBudget := by
  obtain ⟨consistentAfter, inhabitedAfter⟩ := evict_consistent consistent inhabited
  have fits := evict_induction (fun _ => True) (fun _ _ _ _ _ => trivial)
    (fun _ _ _ => trivial) state trivial
  exact ⟨consistentAfter, inhabitedAfter, fits.2.1⟩

theorem Kept.emptied (emptied : Emptied state) : Kept state where
  consistent := by
    constructor <;> simp [chargedBytes, emptied.lru, emptied.groups, emptied.used]
  inhabited query group located := by simp [emptied.groups] at located
  affordable := by simp [emptied.used]

theorem Kept.reads {before after : CacheState Row} (kept : Kept before)
    (reads : Reads before after) : Kept after where
  consistent := kept.consistent.congr reads.spans.1 reads.spans.2 reads.groups reads.used
  inhabited query group located := by
    rw [reads.groups] at located
    exact kept.inhabited query group located
  affordable := by
    rw [reads.used, reads.budget]
    exact kept.affordable

theorem insert_rows_kept [JsonSized Row] (kept : Kept state)
    (query : QueryKey) (snapshot : EpochSnapshot) (offset : UInt64)
    (executedLimit : Option UInt64) (rows : List Row) :
    Kept (insertRows state query snapshot offset executedLimit rows) := by
  rcases insert_rows_cases kept.consistent query snapshot offset executedLimit rows with
    same | ⟨base, group, _, prepared, _, inserted, filled⟩
  · rw [same]
    exact kept
  · rw [inserted]
    apply Kept.evict filled.consistent
    intro other stored located
    by_cases same : other = query
    · subst same
      obtain ⟨starts, start, relocated, member⟩ := filled.group
      obtain rfl := Option.some.inj (relocated.symm.trans located)
      exact ⟨start, member⟩
    · rw [filled.otherGroups other same] at located
      exact prepared.others_inhabited kept.inhabited same located

theorem insert_count_kept [JsonSized Row] (kept : Kept state)
    (query : QueryKey) (snapshot : EpochSnapshot) (total : Int) :
    Kept (insertCount state query snapshot total) := by
  rcases insert_count_cases kept.consistent query snapshot total with
    same | ⟨base, group, prepared, inserted, consistent⟩
  · rw [same]
    exact kept
  · rw [inserted]
    apply Kept.evict consistent
    intro other stored located
    rw [store_span_groups prepared.located, lookup_insert_eq] at located
    split_ifs at located with same
    · obtain rfl := Option.some.inj located
      exact ⟨0, by simp⟩
    · exact prepared.others_inhabited kept.inhabited same located

theorem drop_group_kept (kept : Kept state) (query : QueryKey) : Kept (state.dropGroup query) := by
  obtain ⟨consistent, inhabited, budget⟩ :=
    drop_group_consistent kept.consistent kept.inhabited query
  refine ⟨consistent, inhabited, ?_⟩
  rw [budget]
  exact (drop_group_used state query).trans kept.affordable

section Step

variable [JsonSized Row]

theorem step_kept (world : World Row) (op : Op Row) (kept : Kept world.cache) : Kept (step world op).cache := by
  cases op with
  | insertRows query snapshot offset executedLimit rows =>
    exact insert_rows_kept kept query snapshot offset executedLimit rows
  | insertCount query snapshot total => exact insert_count_kept kept query snapshot total
  | lookupRows query offset limit =>
    exact kept.reads (lookup_rows_reads world.live world.cache query offset limit)
  | lookupCount query => exact kept.reads (lookup_count_reads world.live world.cache query)
  | setBudgetMb sizeMb =>
    dsimp only [step]
    rcases set_budget_mb_cases world.cache sizeMb with emptied | ⟨budget, evicted⟩
    · exact Kept.emptied emptied
    · rw [evicted]
      exact Kept.evict (kept.consistent.congr (fun _ => rfl) rfl rfl rfl) kept.inhabited
  | setBudgetLimitMb limitMb =>
    dsimp only [step]
    rcases set_budget_limit_mb_cases world.cache limitMb with ⟨limit, same⟩ |
      ⟨budget, limit, evicted⟩
    · rw [same]
      exact ⟨kept.consistent.congr (fun _ => rfl) rfl rfl rfl, kept.inhabited, kept.affordable⟩
    · rw [evicted]
      exact Kept.evict (kept.consistent.congr (fun _ => rfl) rfl rfl rfl) kept.inhabited
  | clear indexDb userDataDb =>
    dsimp only [step]
    rcases clear_cases world.cache indexDb userDataDb with emptied | ⟨queries, dropped⟩
    · exact Kept.emptied emptied
    · rw [dropped]
      exact drop_groups_induction Kept (fun state query holds => drop_group_kept holds query)
        queries world.cache kept
  | bumpIndexEpoch | bumpUserDataEpoch => exact kept

theorem run_kept (ops : List (Op Row)) : Kept ((machine Row).run ops).cache := by
  apply (machine Row).run_invariant (fun world => Kept world.cache) (fun _ _ => True)
  · exact ⟨Consistent.new, fun _ _ located => by simp [machine, CacheState.new] at located,
      Nat.le_refl _⟩
  · intro world op _ kept
    exact step_kept world op kept
  · exact (machine Row).admitted_run_of_forall fun _ _ => trivial

/-- After every operation of every run the two structures represent each other. -/
theorem run_represents (ops : List (Op Row)) : Represents ((machine Row).run ops).cache :=
  (run_kept ops).represents

end Step

end Panoptikon.SearchCache
