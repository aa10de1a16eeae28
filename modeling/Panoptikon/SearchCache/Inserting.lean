import Panoptikon.SearchCache.Consistency

/-!
# What an insert does between reconciling and evicting

An insert is refused, goes on in the group as it stands, or starts a fresh
group stamped with its own snapshot; `reconcile_epochs_cases` says so once.
The pieces it then stores are the parts of its window that no span of the
group touches, cut at the grid, so storing them keeps the two structures
consistent and loses no row that was there.
-/

namespace Panoptikon.SearchCache

open Foundation Foundation.Words Foundation.Intervals Foundation.KeyedMap

variable {Row : Type}

def GroupIndex.stamp (group : GroupIndex) : EpochSnapshot where
  index := group.indexEpoch
  userData := group.userDataEpoch

variable {group : GroupIndex}

theorem epoch_order_same {snapshot : EpochSnapshot}
    (same : CacheState.epochOrder snapshot group = .same) : group.stamp = snapshot := by
  obtain ⟨index, userData⟩ := snapshot
  unfold CacheState.epochOrder at same
  dsimp only at same
  split at same
  · rename_i indexEq userDataEq
    have sameIndex : index = group.indexEpoch := Std.LawfulEqOrd.eq_of_compare indexEq
    have sameUserData : userData = group.userDataEpoch := by
      cases stored : group.userDataEpoch with
      | none =>
        rw [stored] at userDataEq
        cases userData with
        | none => rfl
        | some left => cases (userDataEq : Ordering.lt = .eq)
      | some right =>
        rw [stored] at userDataEq
        cases userData with
        | none => cases (userDataEq : Ordering.lt = .eq)
        | some left => rw [Std.LawfulEqOrd.eq_of_compare (userDataEq : compare left right = .eq)]
    rw [GroupIndex.stamp, sameIndex, sameUserData]
  · split_ifs at same

/-- A group that an insert of `snapshot` starts over: no span, no end, the
insert's own stamp. Other queries keep what they had. -/
structure Fresh (before : CacheState Row) (query : QueryKey) (snapshot : EpochSnapshot)
    (after : CacheState Row) : Prop where
  consistent : Consistent after
  budget : after.budgetBytes = before.budgetBytes
  group : ∃ group, after.groups.lookup query = some group ∧ group.stamp = snapshot ∧
    group.knownEnd = none ∧ ∀ start, start ∉ group.starts
  otherGroups : ∀ other, other ≠ query →
    after.groups.lookup other = before.groups.lookup other
  spans : ∀ key, after.lru.lookup key =
    if key.query = query then none else before.lru.lookup key

variable {state : CacheState Row} {query : QueryKey}

theorem CacheState.created_fresh
    (consistent : Consistent state) (snapshot : EpochSnapshot) (absent : state.groups.lookup query = none) :
    Fresh state query snapshot (state.reconcileEpochs query snapshot).1 := by
  have charge : ∀ group : GroupIndex, weight GroupIndex.bytes (state.groups.insert query group) =
      weight GroupIndex.bytes state.groups + group.bytes :=
    fun group => weight_insert_absent GroupIndex.bytes group absent
  have ledger := consistent.ledger
  have noSpan : ∀ key, key.query = query → state.lru.lookup key = none := by
    intro key same
    rw [AList.lookup_eq_none, consistent.spanKeys key, same, absent]
    simp
  have unfolded : (state.reconcileEpochs query snapshot).1 = { state with
      groups := state.groups.insert query
        { starts := SortedSet.empty
          indexEpoch := snapshot.index
          userDataEpoch := snapshot.userData
          knownEnd := none
          bytes := query.bytes }
      usedBytes := state.usedBytes + query.bytes } := by
    simp [CacheState.reconcileEpochs, absent]
  rw [unfolded]
  refine ⟨⟨?_, ?_, consistent.separated, consistent.aligned⟩, rfl,
    ⟨_, AList.lookup_insert _, rfl, rfl, SortedSet.not_mem_empty⟩, ?_, ?_⟩
  · intro key
    rw [consistent.spanKeys key, lookup_insert_eq]
    by_cases same : key.query = query
    · rw [if_pos same, same, absent]
      simp
    · rw [if_neg same]
  · unfold chargedBytes at ledger ⊢
    dsimp only
    rw [charge, ledger, Nat.add_assoc]
  · intro other different
    exact AList.lookup_insert_ne different
  · intro key
    split_ifs with same
    · exact noSpan key same
    · rfl

theorem CacheState.restamped_fresh (consistent : Consistent state) (snapshot : EpochSnapshot)
    (located : state.groups.lookup query = some group) (newer : CacheState.epochOrder snapshot group = .newer) :
    Fresh state query snapshot (state.reconcileEpochs query snapshot).1 := by
  obtain ⟨clean, groups, budget, lookup⟩ := clear_group_spans consistent located
  let emptied : GroupIndex := { group with starts := SortedSet.empty, knownEnd := none }
  let stamped : GroupIndex := { emptied with
    indexEpoch := snapshot.index
    userDataEpoch := snapshot.userData }
  have locatedEmpty : (state.clearGroupSpans query).groups.lookup query = some emptied := by
    rw [groups, AList.lookup_insert]
  have charge : weight GroupIndex.bytes
        ((state.clearGroupSpans query).groups.insert query stamped) + emptied.bytes =
      weight GroupIndex.bytes (state.clearGroupSpans query).groups + stamped.bytes :=
    weight_insert_stored GroupIndex.bytes stamped locatedEmpty
  have sameBytes : stamped.bytes = emptied.bytes := rfl
  have unfolded : (state.reconcileEpochs query snapshot).1 = { state.clearGroupSpans query with
      groups := (state.clearGroupSpans query).groups.insert query stamped } := by
    simp [CacheState.reconcileEpochs, located, newer, locatedEmpty, stamped]
  rw [unfolded]
  refine ⟨⟨?_, ?_, clean.separated, clean.aligned⟩, budget,
    ⟨stamped, AList.lookup_insert _, rfl, rfl, SortedSet.not_mem_empty⟩, ?_, lookup⟩
  · intro key
    rw [clean.spanKeys key, lookup_insert_eq]
    by_cases same : key.query = query
    · rw [if_pos same, same, locatedEmpty]
      simp [stamped]
    · rw [if_neg same]
  · have ledger := clean.ledger
    unfold chargedBytes at ledger ⊢
    dsimp only
    omega
  · intro other different
    dsimp only
    rw [AList.lookup_insert_ne different, groups, AList.lookup_insert_ne different]

theorem reconcile_epochs_cases (consistent : Consistent state)
    (query : QueryKey) (snapshot : EpochSnapshot) : state.reconcileEpochs query snapshot = (state, false) ∨
    (∃ group, state.groups.lookup query = some group ∧ group.stamp = snapshot ∧
      state.reconcileEpochs query snapshot = (state, true)) ∨
    ∃ fresh, state.reconcileEpochs query snapshot = (fresh, true) ∧
      Fresh state query snapshot fresh := by
  cases located : state.groups.lookup query with
  | none =>
    have fresh := CacheState.created_fresh consistent snapshot located
    exact Or.inr (Or.inr ⟨_, by simp [CacheState.reconcileEpochs, located], fresh⟩)
  | some group =>
    cases order : CacheState.epochOrder snapshot group with
    | older =>
      left
      simp [CacheState.reconcileEpochs, located, order]
    | same =>
      right
      left
      exact ⟨group, rfl, epoch_order_same order, by
        simp [CacheState.reconcileEpochs, located, order]⟩
    | newer =>
      have fresh := CacheState.restamped_fresh consistent snapshot located order
      have accepted : (state.reconcileEpochs query snapshot).2 = true := by
        simp only [CacheState.reconcileEpochs, located, order]
        split <;> rfl
      exact Or.inr (Or.inr ⟨_, Prod.ext rfl accepted, fresh⟩)

section Store

variable [JsonSized Row] {state : CacheState Row} {query : QueryKey} {start : Nat}
  {value : SpanValue Row} {group : GroupIndex}

theorem store_span_lookup (state : CacheState Row) (key other : SpanKey) (value : SpanValue Row) :
    (state.storeSpan key value).lru.lookup other =
      if other = key then
        some { value := value, bytes := spanOverheadBytes + CacheState.valueBytes value }
      else state.lru.lookup other :=
  lookup_insert_eq _ _ _ _

theorem store_span_groups (located : state.groups.lookup query = some group) :
    (state.storeSpan ⟨query, start⟩ value).groups =
      state.groups.insert query { group with starts := group.starts.insert start } := by
  simp [CacheState.storeSpan, located]

theorem store_span_charge (located : state.groups.lookup query = some group)
    (ledger : state.usedBytes = chargedBytes state) : (state.storeSpan ⟨query, start⟩ value).usedBytes =
      chargedBytes (state.storeSpan ⟨query, start⟩ value) := by
  have groupCharge := weight_insert_stored GroupIndex.bytes
    { group with starts := group.starts.insert start } located
  dsimp only at groupCharge
  unfold chargedBytes at ledger ⊢
  rw [store_span_groups located]
  let span : Span Row :=
    { value := value, bytes := spanOverheadBytes + CacheState.valueBytes value }
  change _ = weight Span.bytes (state.lru.insert ⟨query, start⟩ span) + _
  cases stored : state.lru.lookup ⟨query, start⟩ with
  | none =>
    have used : (state.storeSpan ⟨query, start⟩ value).usedBytes =
        state.usedBytes + span.bytes := by
      simp [CacheState.storeSpan, stored, span]
    have spanCharge := weight_insert_absent Span.bytes span stored
    omega
  | some previous =>
    have used : (state.storeSpan ⟨query, start⟩ value).usedBytes =
        state.usedBytes - previous.bytes + span.bytes := by
      simp [CacheState.storeSpan, stored, span]
    have spanCharge := weight_insert_stored Span.bytes span stored
    have held := weight_erase Span.bytes stored
    omega

/-- A span that misses the stored ones and stays inside its grid cell can be
stored. -/
theorem store_span_consistent (consistent : Consistent state)
    (located : state.groups.lookup query = some group) (free : Free state query (start, start + value.rowLen))
    (inCell : start + value.rowLen ≤ (start / spanRows + 1) * spanRows) :
    Consistent (state.storeSpan ⟨query, start⟩ value) where
  spanKeys key := by
    rw [← AList.lookup_isSome, store_span_lookup, store_span_groups located, lookup_insert_eq]
    obtain ⟨other, position⟩ := key
    by_cases sameQuery : other = query
    · subst sameQuery
      by_cases samePosition : position = start
      · simp [samePosition]
      · have before := consistent.spanKeys ⟨other, position⟩
        rw [← AList.lookup_isSome, located] at before
        simpa [samePosition] using before
    · have before := consistent.spanKeys ⟨other, position⟩
      rw [← AList.lookup_isSome] at before
      simpa [sameQuery] using before
  ledger := store_span_charge located consistent.ledger
  separated other low high lower higher storedLow storedHigh below := by
    rw [store_span_lookup] at storedLow storedHigh
    split_ifs at storedLow storedHigh with atLow atHigh atHigh
    · simp only [SpanKey.mk.injEq] at atLow atHigh
      omega
    · simp only [SpanKey.mk.injEq] at atLow
      obtain ⟨rfl, rfl⟩ := atLow
      obtain rfl := Option.some.inj storedLow
      have apart := free high higher storedHigh
      simp only [Span.rowLen] at apart ⊢
      omega
    · simp only [SpanKey.mk.injEq] at atHigh
      obtain ⟨rfl, rfl⟩ := atHigh
      have apart := free low lower storedLow
      dsimp only at apart
      omega
    · exact consistent.separated other low high lower higher storedLow storedHigh below
  aligned other position span stored := by
    rw [store_span_lookup] at stored
    split_ifs at stored with same
    · simp only [SpanKey.mk.injEq] at same
      obtain ⟨rfl, rfl⟩ := same
      obtain rfl := Option.some.inj stored
      exact inCell
    · exact consistent.aligned other position span stored

end Store

theorem grid_split_loop {start stop fuel : Nat} (word : stop ≤ wordMax)
    (enough : stop - start ≤ fuel) (ordered : start ≤ stop) : Ascending start stop (gridSplitLoop fuel start stop) ∧
      ∀ position, start ≤ position → position < stop →
        Covers (gridSplitLoop fuel start stop) position := by
  induction fuel generalizing start with
  | zero =>
    refine ⟨ordered, ?_⟩
    intro position lower upper
    omega
  | succ fuel ih =>
    unfold gridSplitLoop
    split_ifs with more
    · have beyond : start < (start / spanRows + 1) * spanRows := by
        unfold spanRows
        omega
      have cutBounds : start < min stop (saturatingMul (start / spanRows + 1) spanRows) ∧
          min stop (saturatingMul (start / spanRows + 1) spanRows) ≤ stop := by
        unfold saturatingMul
        omega
      dsimp only
      generalize min stop (saturatingMul (start / spanRows + 1) spanRows) = cut at cutBounds ⊢
      have fuelLeft : stop - cut ≤ fuel := by omega
      obtain ⟨ascending, covers⟩ := ih fuelLeft cutBounds.2
      refine ⟨⟨Nat.le_refl _, cutBounds.1, ascending⟩, ?_⟩
      intro position lower upper
      by_cases inFirst : position < cut
      · exact covers_cons.mpr (Or.inl ⟨lower, inFirst⟩)
      · exact covers_cons.mpr (Or.inr (covers position (by omega) upper))
    · refine ⟨ordered, ?_⟩
      intro position lower upper
      omega

theorem push_grid_split_splits : Splits pushGridSplit wordMax where
  ascending _ _ ordered word :=
    (grid_split_loop word (Nat.le_refl _) ordered).1
  covers _ _ position lower upper word :=
    (grid_split_loop word (Nat.le_refl _) (by omega)).2 position lower upper

theorem push_grid_split_in_cell (low high : Nat) :
    ∀ piece ∈ pushGridSplit low high, piece.2 ≤ (piece.1 / spanRows + 1) * spanRows := by
  have loop : ∀ fuel start, ∀ piece ∈ gridSplitLoop fuel start high,
      piece.2 ≤ (piece.1 / spanRows + 1) * spanRows := by
    intro fuel
    induction fuel with
    | zero => simp [gridSplitLoop]
    | succ fuel ih =>
      intro start piece member
      unfold gridSplitLoop at member
      split_ifs at member
      · rcases List.mem_cons.mp member with rfl | later
        · exact (Nat.min_le_right _ _).trans (Nat.min_le_left _ _)
        · exact ih _ piece later
      · simp at member
  exact loop _ low

section Occupied

variable {state : CacheState Row} {query : QueryKey} {first stop : Nat}

theorem occupied_ranges_mem {taken : Interval} (member : taken ∈ occupiedRanges state query first stop) :
    ∃ span, state.lru.lookup ⟨query, taken.1⟩ = some span ∧ taken.2 = taken.1 + span.rowLen := by
  unfold occupiedRanges at member
  split at member
  · simp at member
  · obtain ⟨start, _, listed⟩ := List.mem_filterMap.mp member
    split at listed
    · simp at listed
    · rename_i span stored
      split_ifs at listed
      obtain rfl := Option.some.inj listed
      exact ⟨span, stored, rfl⟩

theorem occupied_ranges_apart (consistent : Consistent state) :
    (occupiedRanges state query first stop).Pairwise fun left right => left.2 ≤ right.1 := by
  unfold occupiedRanges
  split
  · exact List.Pairwise.nil
  · rename_i group located
    refine List.Pairwise.filterMap _ ?_ (group.starts.range_ascending _ stop)
    intro low high below left leftListed right rightListed
    split at leftListed
    · simp at leftListed
    · rename_i lower storedLow
      split at rightListed
      · simp at rightListed
      · rename_i higher storedHigh
        split_ifs at leftListed rightListed
        obtain rfl := Option.some.inj leftListed
        obtain rfl := Option.some.inj rightListed
        exact consistent.separated query low high lower higher storedLow storedHigh below

theorem occupied_ranges_lists (consistent : Consistent state) {start : Nat} {span : Span Row}
    (stored : state.lru.lookup ⟨query, start⟩ = some span)
    (reaches : first < start + span.rowLen) (begins : start < stop) :
    (start, start + span.rowLen) ∈ occupiedRanges state query first stop := by
  obtain ⟨group, located, member⟩ := consistent.stored_start stored
  have begin : (group.starts.lastLe first).getD first ≤ start := by
    cases found : group.starts.lastLe first with
    | none => exact (SortedSet.last_le_eq_none found member).le
    | some last =>
      obtain ⟨lastMember, lastLe, greatest⟩ := SortedSet.last_le_eq_some found
      obtain ⟨lastSpan, lastStored⟩ := consistent.start_stored located lastMember
      by_contra above
      have below : start < last := by simpa using above
      have apart := consistent.separated query start last span lastSpan stored lastStored below
      omega
  unfold occupiedRanges
  simp only [located]
  refine List.mem_filterMap.mpr ⟨start, ?_, ?_⟩
  · exact SortedSet.mem_range.mpr ⟨member, begin, begins⟩
  · simp [stored, reaches]

end Occupied

/-- `after` has every row `before` had; what is new belongs to `query` and was
`Added`. Only the starts of that query's group move. -/
structure Extends (before : CacheState Row) (query : QueryKey)
    (Added : Nat → SpanValue Row → Prop) (after : CacheState Row) : Prop where
  consistent : Consistent after
  budget : after.budgetBytes = before.budgetBytes
  group : ∀ group, before.groups.lookup query = some group →
    ∃ starts, after.groups.lookup query = some { group with starts := starts }
  otherGroups : ∀ other, other ≠ query →
    after.groups.lookup other = before.groups.lookup other
  added : ∀ key span, after.lru.lookup key = some span →
    before.lru.lookup key = some span ∨ (key.query = query ∧ Added key.start span.value)
  kept : ∀ key span, before.lru.lookup key = some span →
    key.query ≠ query ∨ 0 < span.rowLen → after.lru.lookup key = some span

theorem Extends.refl (consistent : Consistent state)
    (query : QueryKey) (Added : Nat → SpanValue Row → Prop) : Extends state query Added state where
  consistent := consistent
  budget := rfl
  group group located := ⟨group.starts, located⟩
  otherGroups _ _ := rfl
  added _ _ stored := Or.inl stored
  kept _ _ stored _ := stored

variable {Added : Nat → SpanValue Row → Prop}

theorem Extends.trans {before middle after : CacheState Row} (first : Extends before query Added middle)
    (second : Extends middle query Added after) : Extends before query Added after where
  consistent := second.consistent
  budget := second.budget.trans first.budget
  group group located := by
    obtain ⟨starts, inMiddle⟩ := first.group group located
    exact second.group { group with starts := starts } inMiddle
  otherGroups other different :=
    (second.otherGroups other different).trans (first.otherGroups other different)
  added key span stored := by
    rcases second.added key span stored with inMiddle | fresh
    · exact first.added key span inMiddle
    · exact Or.inr fresh
  kept key span stored visible :=
    second.kept key span (first.kept key span stored visible) visible

/-- The rows of an execution that fall into a piece of its window. -/
def pieceRows (offset : Nat) (rows : List Row) (piece : Interval) : List Row :=
  (rows.drop (piece.1 - offset)).take (piece.2 - piece.1)

variable {offset : Nat} {rows : List Row}

theorem piece_rows_length {piece : Interval}
    (lower : offset ≤ piece.1) (proper : piece.1 < piece.2) (upper : piece.2 ≤ offset + rows.length) :
    (pieceRows offset rows piece).length = piece.2 - piece.1 := by
  simp only [pieceRows, List.length_take, List.length_drop]
  omega

/-- What an execution at `offset` may add: a slice of its own rows. -/
def SliceOf (offset : Nat) (rows : List Row) (start : Nat) (value : SpanValue Row) : Prop :=
  ∃ piece : Interval, piece.1 = start ∧ offset ≤ start ∧ start ≤ offset + rows.length ∧
    value = .rows (pieceRows offset rows piece)

section Extends

variable [JsonSized Row] {state : CacheState Row} {query : QueryKey} {group : GroupIndex}

theorem store_span_extends {start : Nat}
    {value : SpanValue Row} (consistent : Consistent state) (located : state.groups.lookup query = some group)
    (free : Free state query (start, start + value.rowLen))
    (inCell : start + value.rowLen ≤ (start / spanRows + 1) * spanRows)
    (replaced : ∀ previous, state.lru.lookup ⟨query, start⟩ = some previous →
      previous.rowLen = 0)
    (added : Added start value) : Extends state query Added (state.storeSpan ⟨query, start⟩ value) where
  consistent := store_span_consistent consistent located free inCell
  budget := rfl
  group group' located' := by
    obtain rfl := Option.some.inj (located.symm.trans located')
    exact ⟨_, by rw [store_span_groups located, AList.lookup_insert]⟩
  otherGroups other different := by
    rw [store_span_groups located, AList.lookup_insert_ne different]
  added key span stored := by
    rw [store_span_lookup] at stored
    split_ifs at stored with same
    · obtain rfl := Option.some.inj stored
      subst same
      exact Or.inr ⟨rfl, added⟩
    · exact Or.inl stored
  kept key span stored visible := by
    rw [store_span_lookup, if_neg]
    · exact stored
    · rintro rfl
      have empty := replaced span stored
      simp [empty] at visible

theorem store_pieces_extends {offset low high : Nat} {pieces : List Interval} (consistent : Consistent state)
    (located : state.groups.lookup query = some group)
    (ascending : Ascending low high pieces) (above : offset ≤ low) (within : high ≤ offset + rows.length)
    (free : ∀ piece ∈ pieces, Free state query piece)
    (inCell : ∀ piece ∈ pieces, piece.2 ≤ (piece.1 / spanRows + 1) * spanRows) :
    Extends state query (SliceOf offset rows) (storePieces state query offset rows pieces) ∧
      ∀ piece ∈ pieces, ∃ span,
        (storePieces state query offset rows pieces).lru.lookup ⟨query, piece.1⟩ = some span ∧
        span.rowLen = piece.2 - piece.1 := by
  induction pieces generalizing state group low with
  | nil => exact ⟨Extends.refl consistent query _, by simp⟩
  | cons piece rest ih =>
    obtain ⟨lower, proper, later⟩ := ascending
    have top := later.le
    let value : SpanValue Row := .rows (pieceRows offset rows piece)
    have length : value.rowLen = piece.2 - piece.1 :=
      piece_rows_length (above.trans lower) proper (top.trans within)
    have stop : piece.1 + value.rowLen = piece.2 := by omega
    have own := free piece (by simp)
    have stored : Extends state query (SliceOf offset rows)
        (state.storeSpan ⟨query, piece.1⟩ value) := by
      apply store_span_extends consistent located
      · rw [stop]
        exact own
      · rw [stop]
        exact inCell piece (by simp)
      · intro previous found
        have apart := own piece.1 previous found
        omega
      · exact ⟨piece, rfl, by omega, by omega, rfl⟩
    obtain ⟨starts, relocated⟩ := stored.group group located
    have stillFree : ∀ other ∈ rest,
        Free (state.storeSpan ⟨query, piece.1⟩ value) query other := by
      intro other member start span found
      rw [store_span_lookup] at found
      split_ifs at found with same
      · simp only [SpanKey.mk.injEq, true_and] at same
        obtain rfl := Option.some.inj found
        have after := (later.bounds member).1
        simp only [Span.rowLen]
        omega
      · exact free other (by simp [member]) start span found
    obtain ⟨grown, present⟩ := ih stored.consistent relocated later (by omega) stillFree
      (fun other member => inCell other (by simp [member]))
    refine ⟨stored.trans grown, ?_⟩
    intro other member
    rcases List.mem_cons.mp member with rfl | inRest
    · let span : Span Row :=
        { value := value, bytes := spanOverheadBytes + CacheState.valueBytes value }
      refine ⟨span, grown.kept ⟨query, other.1⟩ span ?_ (Or.inr ?_), length⟩
      · rw [store_span_lookup, if_pos rfl]
      · have positive : 0 < value.rowLen := by omega
        exact positive
    · exact present other inRest

/-- The anchor is stored only in a group without spans, and leaves it with one. -/
theorem anchor_group_extends (consistent : Consistent state) (located : state.groups.lookup query = some group) :
    Extends state query (SliceOf offset rows) (anchorGroup state query offset) ∧
      ∃ starts start, (anchorGroup state query offset).groups.lookup query =
        some { group with starts := starts } ∧ start ∈ starts := by
  unfold anchorGroup
  by_cases empty : group.starts.isEmpty
  · have noSpan : ∀ start span, state.lru.lookup ⟨query, start⟩ ≠ some span := by
      intro start span stored
      obtain ⟨other, locatedOther, member⟩ := consistent.stored_start stored
      obtain rfl := Option.some.inj (located.symm.trans locatedOther)
      exact SortedSet.is_empty_iff.mp empty start member
    rw [if_pos (by simp [located, empty])]
    constructor
    · apply store_span_extends consistent located
      · intro start span stored
        exact absurd stored (noSpan start span)
      · simp only [SpanValue.rowLen, List.length_nil, spanRows]
        omega
      · intro previous stored
        exact absurd stored (noSpan _ _)
      · exact ⟨(offset, offset), rfl, Nat.le_refl _, Nat.le_add_right _ _, by simp [pieceRows]⟩
    · refine ⟨group.starts.insert offset, offset, ?_, by simp⟩
      rw [store_span_groups located, AList.lookup_insert]
  · rw [if_neg (by simp [located, empty])]
    refine ⟨Extends.refl consistent query _, group.starts, ?_⟩
    have some_start := mt SortedSet.is_empty_iff.mpr empty
    push Not at some_start
    obtain ⟨start, member⟩ := some_start
    exact ⟨start, located, member⟩

end Extends

/-- `position` lies in a stored span of rows of `query`. -/
def Covered (state : CacheState Row) (query : QueryKey) (position : Nat) : Prop :=
  ∃ start span, state.lru.lookup ⟨query, start⟩ = some span ∧ start ≤ position ∧
    position < start + span.rowLen

theorem Extends.covered {before after : CacheState Row} (growth : Extends before query Added after)
    {position : Nat} (covered : Covered before query position) : Covered after query position := by
  obtain ⟨start, span, stored, lower, upper⟩ := covered
  exact ⟨start, span, growth.kept ⟨query, start⟩ span stored (Or.inr (by omega)), lower, upper⟩

/-- The group after an execution was noted: only the known end moves. -/
def notedEnd (group : GroupIndex) (offset returned : Nat) (executedLimit : Option Nat) :
    Option Nat :=
  if executedLimit.all (returned < ·) then some (saturatingAdd offset returned)
  else group.knownEnd

section Fill

variable {state : CacheState Row} {query : QueryKey} {group : GroupIndex}

theorem record_known_end (consistent : Consistent state) (located : state.groups.lookup query = some group)
    (offset returned : Nat) (executedLimit : Option Nat) :
    Consistent (recordKnownEnd state query offset returned executedLimit) ∧
      (recordKnownEnd state query offset returned executedLimit).lru = state.lru ∧
      (recordKnownEnd state query offset returned executedLimit).budgetBytes =
        state.budgetBytes ∧
      ∀ other, (recordKnownEnd state query offset returned executedLimit).groups.lookup other =
        if other = query then
          some { group with knownEnd := notedEnd group offset returned executedLimit }
        else state.groups.lookup other := by
  unfold recordKnownEnd notedEnd
  by_cases short : executedLimit.all (returned < ·) = true
  · rw [if_pos short, if_pos short, located]
    have groupCharge := weight_insert_stored GroupIndex.bytes
      { group with knownEnd := some (saturatingAdd offset returned) } located
    have ledger := consistent.ledger
    unfold chargedBytes at ledger
    dsimp only at groupCharge ⊢
    refine ⟨⟨?_, ?_, consistent.separated, consistent.aligned⟩, rfl, rfl, ?_⟩
    · intro key
      rw [consistent.spanKeys key, lookup_insert_eq]
      by_cases same : key.query = query
      · rw [if_pos same, same, located]
        simp
      · rw [if_neg same]
    · unfold chargedBytes
      dsimp only
      omega
    · intro other
      exact lookup_insert_eq _ _ _ _
  · rw [if_neg short, if_neg short]
    refine ⟨consistent, rfl, rfl, ?_⟩
    intro other
    split_ifs with same
    · rw [same, located]
    · rfl

end Fill

/-- The parts of `[offset, stop)` that no span of `query` touches. -/
def freshPieces (state : CacheState Row) (query : QueryKey) (offset stop : Nat) :
    List Interval :=
  trim pushGridSplit stop offset (occupiedRanges state query offset stop)

section Pieces

variable {state : CacheState Row} {query : QueryKey} {offset stop : Nat}

theorem fresh_pieces_ascending (ordered : offset ≤ stop) (word : stop ≤ wordMax) :
    Ascending offset stop (freshPieces state query offset stop) := by
  apply trim_ascending push_grid_split_splits word ordered
  intro taken member
  obtain ⟨span, _, stopEq⟩ := occupied_ranges_mem member
  omega

theorem fresh_pieces_free (consistent : Consistent state) (ordered : offset ≤ stop) (word : stop ≤ wordMax) :
    ∀ piece ∈ freshPieces state query offset stop, Free state query piece := by
  intro piece member start span stored
  have bounds := (fresh_pieces_ascending ordered word).bounds member
  by_cases reaches : offset < start + span.rowLen
  · by_cases begins : start < stop
    · have listed := occupied_ranges_lists consistent stored reaches begins
      have proper : ∀ taken ∈ occupiedRanges state query offset stop, taken.1 ≤ taken.2 := by
        intro taken inList
        obtain ⟨other, _, stopEq⟩ := occupied_ranges_mem inList
        omega
      have apart := trim_avoids push_grid_split_splits word ordered proper
        (occupied_ranges_apart consistent) member listed
      exact apart.symm
    · exact Or.inr (by omega)
  · exact Or.inl (by omega)

theorem fresh_pieces_in_cell :
    ∀ piece ∈ freshPieces state query offset stop,
      piece.2 ≤ (piece.1 / spanRows + 1) * spanRows :=
  fun _ member => trim_pieces push_grid_split_in_cell member

theorem fresh_pieces_cover (word : stop ≤ wordMax) {position : Nat}
    (lower : offset ≤ position) (upper : position < stop) :
    Covers (freshPieces state query offset stop) position ∨ Covered state query position := by
  rcases trim_covers push_grid_split_splits word lower upper with fresh | occupied
  · exact Or.inl fresh
  · obtain ⟨taken, member, first, last⟩ := occupied
    obtain ⟨span, stored, stopEq⟩ := occupied_ranges_mem member
    exact Or.inr ⟨taken.1, span, stored, first, by omega⟩

end Pieces

/-- What filling the group leaves: the old rows and slices of the new ones, the
window covered, the end noted, and at least one span in the group. -/
structure Filled (before : CacheState Row) (query : QueryKey) (group : GroupIndex)
    (offset : Nat) (executedLimit : Option Nat) (rows : List Row)
    (after : CacheState Row) : Prop where
  consistent : Consistent after
  budget : after.budgetBytes = before.budgetBytes
  group : ∃ starts start, after.groups.lookup query = some { group with
    starts := starts
    knownEnd := notedEnd group offset rows.length executedLimit } ∧ start ∈ starts
  otherGroups : ∀ other, other ≠ query →
    after.groups.lookup other = before.groups.lookup other
  added : ∀ key span, after.lru.lookup key = some span →
    before.lru.lookup key = some span ∨
      (key.query = query ∧ SliceOf offset rows key.start span.value)
  kept : ∀ key span, before.lru.lookup key = some span →
    key.query ≠ query ∨ 0 < span.rowLen → after.lru.lookup key = some span
  window : ∀ position, offset ≤ position → position < saturatingAdd offset rows.length →
    Covered after query position

theorem fill_group [JsonSized Row] (consistent : Consistent state)
    (located : state.groups.lookup query = some group)
    (word : offset ≤ wordMax) (executedLimit : Option Nat) (rows : List Row) :
    Filled state query group offset executedLimit rows
      (fillGroup state query offset executedLimit rows) := by
  obtain ⟨notedConsistent, lru, budget, groups⟩ :=
    record_known_end consistent located offset rows.length executedLimit
  have ordered : offset ≤ saturatingAdd offset rows.length := le_saturating_add word
  have top : saturatingAdd offset rows.length ≤ wordMax := saturating_add_le_word _ _
  have notedGroup := groups query
  rw [if_pos rfl] at notedGroup
  generalize notedIs : recordKnownEnd state query offset rows.length executedLimit = noted
    at notedConsistent lru budget groups notedGroup
  have pieces : Ascending offset (saturatingAdd offset rows.length)
      (freshPieces noted query offset (saturatingAdd offset rows.length)) :=
    fresh_pieces_ascending ordered top
  obtain ⟨stored, present⟩ := store_pieces_extends notedConsistent notedGroup pieces
    (Nat.le_refl _) (saturating_add_le _ _)
    (fresh_pieces_free notedConsistent ordered top) fresh_pieces_in_cell
  obtain ⟨starts, storedGroup⟩ := stored.group _ notedGroup
  obtain ⟨anchored, finalStarts, start, finalGroup, member⟩ :
      Extends _ query (SliceOf offset rows) _ ∧ _ :=
    anchor_group_extends stored.consistent storedGroup
  have grown := stored.trans anchored
  have unfolded : fillGroup state query offset executedLimit rows =
      anchorGroup (storePieces noted query offset rows
        (freshPieces noted query offset (saturatingAdd offset rows.length))) query offset := by
    rw [← notedIs]
    rfl
  rw [unfolded]
  refine ⟨anchored.consistent, grown.budget.trans budget, ⟨finalStarts, start, finalGroup, member⟩,
    ?_, ?_, ?_, ?_⟩
  · intro other different
    rw [grown.otherGroups other different, groups, if_neg different]
  · intro key span found
    rw [← lru]
    exact grown.added key span found
  · intro key span found visible
    rw [← lru] at found
    exact grown.kept key span found visible
  · intro position lower upper
    rcases fresh_pieces_cover top lower upper with fresh | occupied
    · obtain ⟨piece, inPieces, first, last⟩ := fresh
      obtain ⟨span, found, length⟩ := present piece inPieces
      exact anchored.covered ⟨piece.1, span, found, first, by omega⟩
    · exact grown.covered occupied

end Panoptikon.SearchCache
