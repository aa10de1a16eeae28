import Panoptikon.SearchCache.Model

/-!
# What each operation does to the two structures

`Consistent` is what the span list and the group index owe each other while an
operation is under way: they name the same spans, the charge is exact, spans of
one group follow one another and stay inside a grid cell. A group may be empty
in between (a cleared or freshly created one), so emptiness is kept apart. Each
mutating helper gets one lemma that says what it does to both structures;
callers never unfold it.
-/

namespace Panoptikon.SearchCache

open Foundation Foundation.Words Foundation.Intervals Foundation.KeyedMap

variable {Row : Type}

/-- The charge of the spans and of the groups, each counted once. -/
def chargedBytes (state : CacheState Row) : Nat :=
  weight Span.bytes state.lru + weight GroupIndex.bytes state.groups

structure Consistent (state : CacheState Row) : Prop where
  spanKeys : ∀ key, key ∈ state.lru ↔
    ∃ group, state.groups.lookup key.query = some group ∧ key.start ∈ group.starts
  ledger : state.usedBytes = chargedBytes state
  separated : ∀ query low high lower higher,
    state.lru.lookup ⟨query, low⟩ = some lower →
    state.lru.lookup ⟨query, high⟩ = some higher →
    low < high → low + lower.rowLen ≤ high
  aligned : ∀ query start span, state.lru.lookup ⟨query, start⟩ = some span →
    start + span.rowLen ≤ (start / spanRows + 1) * spanRows

def NoEmptyGroup (state : CacheState Row) : Prop :=
  ∀ query group, state.groups.lookup query = some group → ∃ start, start ∈ group.starts

/-- A span of `query` that is stored lies wholly before or after the piece. -/
def Free (state : CacheState Row) (query : QueryKey) (piece : Interval) : Prop :=
  ∀ start span, state.lru.lookup ⟨query, start⟩ = some span →
    start + span.rowLen ≤ piece.1 ∨ piece.2 ≤ start

variable {state : CacheState Row}

theorem Consistent.stored_start (consistent : Consistent state) {query : QueryKey} {start : Nat} {span : Span Row}
    (stored : state.lru.lookup ⟨query, start⟩ = some span) :
    ∃ group, state.groups.lookup query = some group ∧ start ∈ group.starts := by
  apply (consistent.spanKeys ⟨query, start⟩).mp
  rw [← AList.lookup_isSome, stored]
  rfl

theorem Consistent.start_stored (consistent : Consistent state)
    {query : QueryKey} {group : GroupIndex} (located : state.groups.lookup query = some group)
    {start : Nat} (member : start ∈ group.starts) : ∃ span, state.lru.lookup ⟨query, start⟩ = some span := by
  have present := (consistent.spanKeys ⟨query, start⟩).mpr ⟨group, located, member⟩
  exact Option.isSome_iff_exists.mp (AList.lookup_isSome.mpr present)

theorem Consistent.new : Consistent (CacheState.new Row) where
  spanKeys := by simp [CacheState.new]
  ledger := rfl
  separated := by simp [CacheState.new]
  aligned := by simp [CacheState.new]

/-- Only the maps and the charge matter: recency, the budget and the counters
do not. -/
theorem Consistent.congr {before after : CacheState Row} (consistent : Consistent before)
    (lru : ∀ key, after.lru.lookup key = before.lru.lookup key)
    (charge : weight Span.bytes after.lru = weight Span.bytes before.lru)
    (groups : after.groups = before.groups) (used : after.usedBytes = before.usedBytes) : Consistent after where
  spanKeys key := by
    rw [← AList.lookup_isSome, lru, groups, AList.lookup_isSome]
    exact consistent.spanKeys key
  ledger := by
    rw [used, consistent.ledger, chargedBytes, chargedBytes, charge, groups]
  separated query low high lower higher storedLow storedHigh := by
    rw [lru] at storedLow storedHigh
    exact consistent.separated query low high lower higher storedLow storedHigh
  aligned query start span stored := by
    rw [lru] at stored
    exact consistent.aligned query start span stored

/-- The state after the least recently used span has left both structures. -/
def dropSpan (state : CacheState Row) (key : SpanKey) (span : Span Row) : CacheState Row :=
  CacheState.detachSpan
    { state with lru := state.lru.erase key, usedBytes := state.usedBytes - span.bytes } key

section Drop

variable {state : CacheState Row} {key : SpanKey} {span : Span Row}

theorem drop_span_lru : (dropSpan state key span).lru = state.lru.erase key := by
  unfold dropSpan CacheState.detachSpan
  split
  · rfl
  · dsimp only
    split <;> rfl

theorem drop_span_budget : (dropSpan state key span).budgetBytes = state.budgetBytes := by
  unfold dropSpan CacheState.detachSpan
  split
  · rfl
  · dsimp only
    split <;> rfl

theorem drop_span_group {group : GroupIndex}
    (located : state.groups.lookup key.query = some group) (query : QueryKey) :
    (dropSpan state key span).groups.lookup query =
      if query = key.query then
        if (group.starts.remove key.start).isEmpty then none
        else some { group with starts := group.starts.remove key.start }
      else state.groups.lookup query := by
  unfold dropSpan CacheState.detachSpan
  simp only [located]
  split_ifs with empty same same <;> simp_all [lookup_erase_eq, lookup_insert_eq]

theorem drop_span_consistent (consistent : Consistent state)
    (stored : state.lru.lookup key = some span) : Consistent (dropSpan state key span) := by
  obtain ⟨group, located, member⟩ := consistent.stored_start stored
  have kept : ∀ other span', (dropSpan state key span).lru.lookup other = some span' →
      state.lru.lookup other = some span' := by
    intro other span' found
    rw [drop_span_lru, lookup_erase_eq] at found
    split_ifs at found
    exact found
  refine ⟨?_, ?_, ?_, ?_⟩
  · intro other
    rw [drop_span_lru, AList.mem_erase, consistent.spanKeys other, drop_span_group located]
    by_cases same : other.query = key.query
    · have starts : other ≠ key ↔ other.start ≠ key.start := by
        cases other
        cases key
        simp_all
      rw [if_pos same, same, located]
      by_cases empty : (group.starts.remove key.start).isEmpty
      · have noneLeft := SortedSet.is_empty_iff.mp empty other.start
        simp only [SortedSet.mem_remove, not_and] at noneLeft
        simp only [empty, if_true, Option.some.injEq, exists_eq_left', reduceCtorEq, false_and,
          exists_false, iff_false, not_and, starts]
        exact noneLeft
      · simp [empty, starts]
    · have different : other ≠ key := fun equal => same (by rw [equal])
      simp [if_neg same, different]
  · have spanCharge := weight_erase Span.bytes stored
    have groupCharge := weight_erase GroupIndex.bytes located
    have ledger := consistent.ledger
    unfold chargedBytes at ledger ⊢
    rw [drop_span_lru]
    unfold dropSpan CacheState.detachSpan
    simp only [located]
    split_ifs with empty
    · simp only
      omega
    · have shrunk := weight_insert_stored GroupIndex.bytes
        { group with starts := group.starts.remove key.start } located
      dsimp only at shrunk ⊢
      omega
  · intro query low high lower higher storedLow storedHigh
    exact consistent.separated query low high lower higher (kept _ _ storedLow)
      (kept _ _ storedHigh)
  · intro query start span' found
    exact consistent.aligned query start span' (kept _ _ found)

theorem drop_span_no_empty (consistent : Consistent state)
    (stored : state.lru.lookup key = some span) (noEmpty : NoEmptyGroup state) :
    NoEmptyGroup (dropSpan state key span) := by
  obtain ⟨group, located, member⟩ := consistent.stored_start stored
  intro query kept found
  rw [drop_span_group located] at found
  split_ifs at found with same empty
  · simp only [Option.some.injEq] at found
    subst found
    rw [SortedSet.is_empty_iff] at empty
    push Not at empty
    exact empty
  · exact noEmpty query kept found

end Drop

/-- One turn of the eviction loop: done, or a stored span dropped, or (with no
span left) everything reset. -/
theorem evict_loop_cases (fuel : Nat) (state : CacheState Row) :
    (state.usedBytes ≤ state.budgetBytes ∧ CacheState.evictLoop (fuel + 1) state = state) ∨
    (∃ key span, state.lru.lookup key = some span ∧
      (dropSpan state key span).lru.entries.length + 1 = state.lru.entries.length ∧
      CacheState.evictLoop (fuel + 1) state =
        CacheState.evictLoop fuel { dropSpan state key span with
          evictions := (dropSpan state key span).evictions + 1 }) ∨
    (state.lru = ∅ ∧ CacheState.evictLoop (fuel + 1) state =
      { state with groups := ∅, usedBytes := 0 }) := by
  by_cases overrun : state.budgetBytes < state.usedBytes
  · right
    cases popped : state.lru.removeLru with
    | none =>
      right
      exact ⟨LruCache.remove_lru_eq_none popped, by
        simp [CacheState.evictLoop, overrun, popped]⟩
    | some entry =>
      obtain ⟨key, span, lru⟩ := entry
      obtain ⟨stored, rest⟩ := LruCache.remove_lru_eq_some popped
      left
      refine ⟨key, span, stored, ?_, ?_⟩
      · rw [drop_span_lru, ← rest]
        exact LruCache.remove_lru_length popped
      · simp [CacheState.evictLoop, overrun, popped, dropSpan, rest]
  · left
    exact ⟨by omega, by simp [CacheState.evictLoop, overrun]⟩

/-- The induction over the eviction loop: an invariant kept by dropping a
stored span, by counting and by the reset holds of what eviction leaves, and
there is fuel enough to end within the budget. -/
theorem evict_induction (Invariant : CacheState Row → Prop)
    (dropped : ∀ state key span, Invariant state → state.lru.lookup key = some span →
      Invariant { dropSpan state key span with
        evictions := (dropSpan state key span).evictions + 1 })
    (reset : ∀ state, Invariant state → state.lru = ∅ →
      Invariant { state with groups := ∅, usedBytes := 0 })
    (state : CacheState Row) (holds : Invariant state) :
    Invariant state.evictToBudget ∧
      state.evictToBudget.usedBytes ≤ state.evictToBudget.budgetBytes ∧
      state.evictToBudget.budgetBytes = state.budgetBytes := by
  have loop : ∀ fuel state, Invariant state → state.lru.entries.length < fuel →
      Invariant (CacheState.evictLoop fuel state) ∧
      (CacheState.evictLoop fuel state).usedBytes ≤
        (CacheState.evictLoop fuel state).budgetBytes ∧
      (CacheState.evictLoop fuel state).budgetBytes = state.budgetBytes := by
    intro fuel
    induction fuel with
    | zero =>
      intro state _ short
      omega
    | succ fuel ih =>
      intro state holds enough
      rcases evict_loop_cases fuel state with ⟨within, same⟩ | ⟨key, span, stored, shorter, next⟩ |
        ⟨exhausted, next⟩
      · rw [same]
        exact ⟨holds, within, rfl⟩
      · have later := ih { dropSpan state key span with
            evictions := (dropSpan state key span).evictions + 1 }
          (dropped state key span holds stored) (by simp only; omega)
        rw [next]
        refine ⟨later.1, later.2.1, ?_⟩
        rw [later.2.2]
        exact drop_span_budget
      · rw [next]
        exact ⟨reset state holds exhausted, Nat.zero_le _, rfl⟩
  exact loop _ state holds (Nat.lt_succ_self _)

theorem evict_fits (within : state.usedBytes ≤ state.budgetBytes) : state.evictToBudget = state := by
  simp [CacheState.evictToBudget, CacheState.evictLoop, Nat.not_lt.mpr within]

theorem evict_consistent (consistent : Consistent state)
    (noEmpty : NoEmptyGroup state) : Consistent state.evictToBudget ∧ NoEmptyGroup state.evictToBudget := by
  refine (evict_induction (fun state => Consistent state ∧ NoEmptyGroup state)
    ?_ ?_ state ⟨consistent, noEmpty⟩).1
  · intro state key span holds stored
    have kept := drop_span_consistent holds.1 stored
    exact ⟨kept.congr (fun _ => rfl) rfl rfl rfl, drop_span_no_empty holds.1 stored holds.2⟩
  · intro state _ exhausted
    constructor
    · constructor <;> simp [exhausted, chargedBytes]
    · intro query group located
      simp at located

theorem remove_span_groups (state : CacheState Row) (key : SpanKey) : (state.removeSpan key).groups = state.groups ∧
      (state.removeSpan key).budgetBytes = state.budgetBytes := by
  unfold CacheState.removeSpan
  split <;> exact ⟨rfl, rfl⟩

theorem remove_span_lookup (state : CacheState Row) (key other : SpanKey) :
    (state.removeSpan key).lru.lookup other =
      if other = key then none else state.lru.lookup other := by
  unfold CacheState.removeSpan
  split
  · exact lookup_erase_eq _ _ _
  · rename_i absent
    split_ifs with same
    · rw [same, absent]
    · rfl

theorem remove_span_charge {rest : Nat} (key : SpanKey)
    (ledger : state.usedBytes = weight Span.bytes state.lru + rest) :
    (state.removeSpan key).usedBytes = weight Span.bytes (state.removeSpan key).lru + rest := by
  unfold CacheState.removeSpan
  split
  · rename_i span stored
    have charge := weight_erase Span.bytes stored
    dsimp only
    omega
  · exact ledger

/-- Removing the spans at a list of starts: exactly those keys go, and the
charge goes with them. -/
theorem remove_spans {rest : Nat} (query : QueryKey) (starts : List Nat)
    (state : CacheState Row) (ledger : state.usedBytes = weight Span.bytes state.lru + rest) :
    let removed := starts.foldl (fun state start => state.removeSpan ⟨query, start⟩) state
    removed.groups = state.groups ∧ removed.budgetBytes = state.budgetBytes ∧
      (∀ key, removed.lru.lookup key =
        if key.query = query ∧ key.start ∈ starts then none else state.lru.lookup key) ∧
      removed.usedBytes = weight Span.bytes removed.lru + rest := by
  induction starts generalizing state with
  | nil => simp [ledger]
  | cons start starts ih =>
    obtain ⟨groups, budget, lookup, charge⟩ :=
      ih (state.removeSpan ⟨query, start⟩) (remove_span_charge _ ledger)
    obtain ⟨sameGroups, sameBudget⟩ := remove_span_groups state ⟨query, start⟩
    refine ⟨groups.trans sameGroups, budget.trans sameBudget, ?_, charge⟩
    intro key
    rw [List.foldl_cons, lookup key, remove_span_lookup]
    cases key
    simp only [SpanKey.mk.injEq, List.mem_cons]
    split_ifs <;> simp_all

section Clear

variable {state : CacheState Row} {query : QueryKey} {group : GroupIndex}

theorem clear_group_spans (consistent : Consistent state) (located : state.groups.lookup query = some group) :
    Consistent (state.clearGroupSpans query) ∧
      (state.clearGroupSpans query).groups =
        state.groups.insert query { group with starts := SortedSet.empty, knownEnd := none } ∧
      (state.clearGroupSpans query).budgetBytes = state.budgetBytes ∧
      ∀ key, (state.clearGroupSpans query).lru.lookup key =
        if key.query = query then none else state.lru.lookup key := by
  let emptied : GroupIndex := { group with starts := SortedSet.empty, knownEnd := none }
  have groupCharge : weight GroupIndex.bytes (state.groups.insert query emptied) + group.bytes =
      weight GroupIndex.bytes state.groups + group.bytes :=
    weight_insert_stored GroupIndex.bytes emptied located
  have ledger := consistent.ledger
  unfold chargedBytes at ledger
  obtain ⟨groups, budget, lookup, charge⟩ := remove_spans query group.starts.elems
    { state with groups := state.groups.insert query emptied }
    (show state.usedBytes = weight Span.bytes state.lru +
      weight GroupIndex.bytes (state.groups.insert query emptied) by omega)
  have unfolded : state.clearGroupSpans query =
      group.starts.elems.foldl (fun state start => state.removeSpan ⟨query, start⟩)
        { state with groups := state.groups.insert query emptied } := by
    simp [CacheState.clearGroupSpans, located, emptied]
  rw [← unfolded] at groups budget lookup charge
  have absent : ∀ key, key.query = query → key.start ∉ group.starts →
      state.lru.lookup key = none := by
    intro key same missing
    rw [AList.lookup_eq_none, consistent.spanKeys key, same]
    rintro ⟨other, locatedOther, member⟩
    rw [located, Option.some.injEq] at locatedOther
    exact missing (locatedOther ▸ member)
  have cleared : ∀ key, (state.clearGroupSpans query).lru.lookup key =
      if key.query = query then none else state.lru.lookup key := by
    intro key
    rw [lookup key]
    by_cases same : key.query = query
    · by_cases member : key.start ∈ group.starts.elems
      · simp [same, member]
      · simp [same, member, absent key same member]
    · simp [same]
  have kept : ∀ key span, (state.clearGroupSpans query).lru.lookup key = some span →
      state.lru.lookup key = some span := by
    intro key span found
    rw [cleared key] at found
    split_ifs at found
    exact found
  refine ⟨⟨?_, ?_, ?_, ?_⟩, groups, budget, cleared⟩
  · intro key
    rw [← AList.lookup_isSome, cleared key, groups, lookup_insert_eq]
    by_cases same : key.query = query
    · simp [same, emptied]
    · rw [if_neg same, if_neg same, AList.lookup_isSome]
      exact consistent.spanKeys key
  · rw [charge, chargedBytes, groups]
  · intro other low high lower higher storedLow storedHigh
    exact consistent.separated other low high lower higher (kept _ _ storedLow)
      (kept _ _ storedHigh)
  · intro other start span found
    exact consistent.aligned other start span (kept _ _ found)

theorem clear_group_spans_used (state : CacheState Row) (query : QueryKey) :
    (state.clearGroupSpans query).usedBytes ≤ state.usedBytes := by
  have removing : ∀ (starts : List Nat) (state : CacheState Row),
      (starts.foldl (fun state start => state.removeSpan ⟨query, start⟩) state).usedBytes ≤
        state.usedBytes := by
    intro starts
    induction starts with
    | nil => exact fun state => Nat.le_refl _
    | cons start rest ih =>
      intro state
      refine (ih (state.removeSpan ⟨query, start⟩)).trans ?_
      unfold CacheState.removeSpan
      split
      · exact Nat.sub_le _ _
      · exact Nat.le_refl _
  unfold CacheState.clearGroupSpans
  split
  · exact Nat.le_refl _
  · exact removing _ _

theorem drop_group_used (state : CacheState Row) (query : QueryKey) :
    (state.dropGroup query).usedBytes ≤ state.usedBytes := by
  have cleared := clear_group_spans_used state query
  unfold CacheState.dropGroup
  dsimp only
  split
  · exact cleared
  · exact (Nat.sub_le _ _).trans cleared

theorem drop_group_absent (absent : state.groups.lookup query = none) : state.dropGroup query = state := by
  simp [CacheState.dropGroup, CacheState.clearGroupSpans, absent]

theorem drop_group_stored (consistent : Consistent state) (located : state.groups.lookup query = some group) :
    Consistent (state.dropGroup query) ∧
      (state.dropGroup query).groups = (state.groups.insert query
        { group with starts := SortedSet.empty, knownEnd := none }).erase query ∧
      (state.dropGroup query).budgetBytes = state.budgetBytes ∧
      ∀ key, (state.dropGroup query).lru.lookup key =
        if key.query = query then none else state.lru.lookup key := by
  let emptied : GroupIndex := { group with starts := SortedSet.empty, knownEnd := none }
  obtain ⟨clean, groups, budget, lookup⟩ := clear_group_spans consistent located
  have locatedEmpty : (state.clearGroupSpans query).groups.lookup query = some emptied := by
    rw [groups, AList.lookup_insert]
  have unfolded : state.dropGroup query = { state.clearGroupSpans query with
      groups := (state.clearGroupSpans query).groups.erase query
      usedBytes := (state.clearGroupSpans query).usedBytes - emptied.bytes } := by
    simp [CacheState.dropGroup, locatedEmpty]
  rw [unfolded]
  refine ⟨⟨?_, ?_, ?_, ?_⟩, by simp [groups], budget, lookup⟩
  · intro key
    rw [clean.spanKeys key, lookup_erase_eq]
    by_cases same : key.query = query
    · rw [if_pos same, same, locatedEmpty]
      simp [emptied]
    · rw [if_neg same]
  · have charge := weight_erase GroupIndex.bytes locatedEmpty
    have ledger := clean.ledger
    unfold chargedBytes at ledger ⊢
    dsimp only
    omega
  · exact clean.separated
  · exact clean.aligned

theorem drop_group_consistent (consistent : Consistent state) (noEmpty : NoEmptyGroup state)
    (query : QueryKey) : Consistent (state.dropGroup query) ∧ NoEmptyGroup (state.dropGroup query) ∧
      (state.dropGroup query).budgetBytes = state.budgetBytes := by
  cases located : state.groups.lookup query with
  | none =>
    rw [drop_group_absent located]
    exact ⟨consistent, noEmpty, rfl⟩
  | some group =>
    obtain ⟨clean, groups, budget, _⟩ := drop_group_stored consistent located
    refine ⟨clean, ?_, budget⟩
    intro other kept found
    rw [groups, lookup_erase_eq, lookup_insert_eq] at found
    split_ifs at found
    exact noEmpty other kept found

end Clear

end Panoptikon.SearchCache
