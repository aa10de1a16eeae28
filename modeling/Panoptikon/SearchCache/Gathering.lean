import Panoptikon.SearchCache.Inserting

/-!
# What a lookup reads

The gather loop walks the starts of a window in order. It never reads past a
gap, so what it returns is a prefix of the window's rows as far as they are
covered (`gather_spans_rows`), and it stops early only at a gap, so a covered
window is gathered whole (`gather_spans_reaches`). A lookup is then a hit
exactly when its window, cut at the known end, is covered. Reading moves
recency and counters and nothing else.
-/

namespace Panoptikon.SearchCache

open Foundation Foundation.Words Foundation.Intervals Foundation.KeyedMap

variable {Row : Type}

/-- The two recency lists hold the same spans. -/
def SameSpans (before after : LruCache SpanKey (Span Row)) : Prop :=
  (∀ key, after.lookup key = before.lookup key) ∧
    weight Span.bytes after = weight Span.bytes before

theorem SameSpans.get {lru before after : LruCache SpanKey (Span Row)} {key : SpanKey}
    {span : Span Row} (same : SameSpans lru before) (found : before.get key = some (span, after)) :
    SameSpans lru after :=
  ⟨fun other => (LruCache.lookup_get found other).trans (same.1 other),
    (LruCache.weight_get Span.bytes found).trans same.2⟩

variable {lru : LruCache SpanKey (Span Row)}

/-- What one start contributes to the gathered rows: the loop ends, the start
adds nothing, or it adds the rows of its span up to the end of the window. -/
theorem gather_spans_cases (query : QueryKey) (wanted start : Nat) (rest : List Nat)
    {gathered : Gathered Row} (same : SameSpans lru gathered.lru) :
    (∃ after, SameSpans lru after ∧
      gatherSpans query wanted (start :: rest) gathered = { gathered with lru := after } ∧
      (gathered.covered < start ∨
        ∀ span, lru.lookup ⟨query, start⟩ = some span → span.rowLen = 0 ∧
          ∃ total, span.value = .count total)) ∨
    ∃ rows span after, lru.lookup ⟨query, start⟩ = some span ∧ span.value = .rows rows ∧
      SameSpans lru after ∧ start ≤ gathered.covered ∧
      ((start + rows.length ≤ gathered.covered ∧
        gatherSpans query wanted (start :: rest) gathered =
          gatherSpans query wanted rest { gathered with lru := after }) ∨
       (gathered.covered < start + rows.length ∧
        gatherSpans query wanted (start :: rest) gathered =
          let extended : Gathered Row :=
            { lru := after
              rows := gathered.rows ++ (rows.drop (gathered.covered - start)).take
                (min (start + rows.length) wanted - start - (gathered.covered - start))
              covered := min (start + rows.length) wanted }
          if wanted ≤ extended.covered then extended
          else gatherSpans query wanted rest extended)) := by
  by_cases gap : gathered.covered < start
  · left
    exact ⟨gathered.lru, same, by simp [gatherSpans, gap], Or.inl gap⟩
  · cases found : gathered.lru.get ⟨query, start⟩ with
    | none =>
      left
      refine ⟨gathered.lru, same, by simp [gatherSpans, gap, found], Or.inr ?_⟩
      intro span stored
      rw [← same.1] at stored
      simp [LruCache.get, stored] at found
    | some entry =>
      obtain ⟨span, after⟩ := entry
      have stored := (same.1 _).symm.trans (LruCache.get_eq_some found).1
      have sameAfter := same.get found
      cases value : span.value with
      | count total =>
        left
        refine ⟨after, sameAfter, by simp [gatherSpans, gap, found, value], Or.inr ?_⟩
        intro other storedOther
        obtain rfl := Option.some.inj (stored.symm.trans storedOther)
        exact ⟨by simp [Span.rowLen, value, SpanValue.rowLen], total, value⟩
      | rows rows =>
        right
        refine ⟨rows, span, after, stored, value, sameAfter, by omega, ?_⟩
        by_cases behind : start + rows.length ≤ gathered.covered
        · left
          exact ⟨behind, by simp [gatherSpans, gap, found, value, behind]⟩
        · right
          exact ⟨by omega, by simp [gatherSpans, gap, found, value, behind]⟩

variable {query : QueryKey} {wanted : Nat}

/-- The induction over the gather loop: what survives appending the rows of a
stored span up to the end of the window holds of what is gathered. -/
theorem gather_spans_invariant (Invariant : Nat → List Row → Prop)
    (extend : ∀ covered gatheredRows start rows span,
      lru.lookup ⟨query, start⟩ = some span → span.value = .rows rows →
      start ≤ covered → covered < start + rows.length → covered < wanted →
      Invariant covered gatheredRows →
      Invariant (min (start + rows.length) wanted) (gatheredRows ++
        (rows.drop (covered - start)).take
          (min (start + rows.length) wanted - start - (covered - start))))
    (starts : List Nat) (gathered : Gathered Row) (same : SameSpans lru gathered.lru)
    (below : gathered.covered < wanted) (holds : Invariant gathered.covered gathered.rows) :
    SameSpans lru (gatherSpans query wanted starts gathered).lru ∧
      Invariant (gatherSpans query wanted starts gathered).covered
        (gatherSpans query wanted starts gathered).rows := by
  induction starts generalizing gathered with
  | nil => exact ⟨same, holds⟩
  | cons start rest ih =>
    rcases gather_spans_cases query wanted start rest same with ⟨after, sameAfter, ended, _⟩ |
      ⟨rows, span, after, stored, value, sameAfter, reached, ⟨_, skipped⟩ | ⟨more, grown⟩⟩
    · rw [ended]
      exact ⟨sameAfter, holds⟩
    · rw [skipped]
      exact ih _ sameAfter below holds
    · have grownHolds := extend gathered.covered gathered.rows start rows span stored value
        reached more below holds
      rw [grown]
      dsimp only
      split_ifs with done
      · exact ⟨sameAfter, grownHolds⟩
      · exact ih _ sameAfter (by simpa using done) grownHolds

variable {wanted offset : Nat}

theorem gather_spans_same (lru : LruCache SpanKey (Span Row)) (query : QueryKey) (below : offset < wanted)
    (starts : List Nat) : SameSpans lru
      (gatherSpans query wanted starts { lru := lru, rows := [], covered := offset }).lru := by
  have kept := gather_spans_invariant (fun _ (_ : List Row) => True)
    (fun _ _ _ _ span (_ : lru.lookup ⟨query, _⟩ = some span) _ _ _ _ _ => trivial) starts
    { lru := lru, rows := [], covered := offset } ⟨fun _ => rfl, rfl⟩ below trivial
  exact kept.1

/-- Rows that agree with `truth` wherever they lie gather into a prefix of the
window of `truth`. -/
theorem gather_spans_rows {truth : List Row}
    (faithful : ∀ start span rows, lru.lookup ⟨query, start⟩ = some span →
      span.value = .rows rows → rows = (truth.drop start).take rows.length)
    (below : offset < wanted) (starts : List Nat) :
    let gathered := gatherSpans query wanted starts { lru := lru, rows := [], covered := offset }
    gathered.rows = (truth.drop offset).take (gathered.covered - offset) ∧
      (gathered.covered = offset ∨ gathered.covered ≤ truth.length) ∧
      gathered.covered ≤ wanted := by
  refine (gather_spans_invariant (fun covered rows =>
    offset ≤ covered ∧ rows = (truth.drop offset).take (covered - offset) ∧
      (covered = offset ∨ covered ≤ truth.length) ∧ covered ≤ wanted) ?_ starts
    { lru := lru, rows := [], covered := offset } ⟨fun _ => rfl, rfl⟩ below
    (by simp [below.le])).2.2
  rintro covered gatheredRows start rows span stored value reached more inside
    ⟨fromOffset, rfl, _, _⟩
  have slice := faithful start span rows stored value
  have length : rows.length ≤ truth.length - start := by
    have lengths := congrArg List.length slice
    simp only [List.length_take, List.length_drop] at lengths
    omega
  generalize stopIs : min (start + rows.length) wanted = stop
  refine ⟨by omega, ?_, Or.inr (by omega), by omega⟩
  have next : (rows.drop (covered - start)).take (stop - start - (covered - start)) =
      (truth.drop covered).take (stop - covered) := by
    rw [slice, List.drop_take, List.drop_drop, List.take_take]
    congr 1
    · omega
    · congr 1
      omega
  have whole : (truth.drop offset).take (stop - offset) =
      (truth.drop offset).take (covered - offset) ++
        ((truth.drop offset).drop (covered - offset)).take (stop - covered) := by
    rw [← List.take_add]
    congr 1
    omega
  rw [next, whole, List.drop_drop, show offset + (covered - offset) = covered by omega]

theorem gather_spans_covered {state : CacheState Row}
    (below : offset < wanted) (starts : List Nat) {position : Nat} (lower : offset ≤ position)
    (upper : position <
      (gatherSpans query wanted starts { lru := state.lru, rows := [], covered := offset }).covered) :
    Covered state query position := by
  refine (gather_spans_invariant (fun covered _ =>
    ∀ position, offset ≤ position → position < covered → Covered state query position) ?_ starts
    { lru := state.lru, rows := [], covered := offset } ⟨fun _ => rfl, rfl⟩ below ?_).2
      position lower upper
  · intro covered _ start rows span stored value reached _ _ before position fromOffset inside
    by_cases earlier : position < covered
    · exact before position fromOffset earlier
    · have length : span.rowLen = rows.length := by simp [Span.rowLen, value, SpanValue.rowLen]
      exact ⟨start, span, stored, by omega, by omega⟩
  · intro position fromOffset inside
    dsimp only at inside
    omega

/-- The walk ends only at a position that none of the starts left covers. -/
theorem gather_spans_reaches {state : CacheState Row}
    (consistent : Consistent state) (starts : List Nat) (gathered : Gathered Row)
    (same : SameSpans state.lru gathered.lru) (ascending : starts.Pairwise (· < ·))
    (stored : ∀ start ∈ starts, ∃ span, state.lru.lookup ⟨query, start⟩ = some span)
    (ahead : ∀ start ∈ starts.tail, gathered.covered < start)
    (covered : ∀ position, gathered.covered ≤ position → position < wanted →
      ∃ start ∈ starts, ∃ span, state.lru.lookup ⟨query, start⟩ = some span ∧
        start ≤ position ∧ position < start + span.rowLen) :
    wanted ≤ (gatherSpans query wanted starts gathered).covered := by
  induction starts generalizing gathered with
  | nil =>
    by_contra short
    obtain ⟨start, member, _⟩ := covered gathered.covered (Nat.le_refl _) (by
      simpa [gatherSpans] using short)
    simp at member
  | cons start rest ih =>
    obtain ⟨first, restAscending⟩ := List.pairwise_cons.mp ascending
    have restStored : ∀ other ∈ rest,
        ∃ span, state.lru.lookup ⟨query, other⟩ = some span :=
      fun other member => stored other (by simp [member])
    rcases gather_spans_cases query wanted start rest same with
      ⟨after, sameAfter, ended, why⟩ |
      ⟨rows, span, after, located, value, sameAfter, reached, step⟩
    · rw [ended]
      by_contra short
      obtain ⟨other, member, span, located, lower, upper⟩ :=
        covered gathered.covered (Nat.le_refl _) (by simpa using short)
      rcases List.mem_cons.mp member with rfl | inRest
      · rcases why with gap | counted
        · omega
        · have length := (counted span located).1
          omega
      · have beyond := ahead other inRest
        omega
    · have length : span.rowLen = rows.length := by
        simp [Span.rowLen, value, SpanValue.rowLen]
      -- past the span at `start` only the later starts can cover
      have restCovers : ∀ position, gathered.covered ≤ position →
          start + rows.length ≤ position → position < wanted →
          ∃ other ∈ rest, ∃ span, state.lru.lookup ⟨query, other⟩ = some span ∧
            other ≤ position ∧ position < other + span.rowLen := by
        intro position fromCovered behind inside
        obtain ⟨other, member, span', located', lower, upper⟩ :=
          covered position fromCovered inside
        rcases List.mem_cons.mp member with rfl | inRest
        · obtain rfl := Option.some.inj (located.symm.trans located')
          omega
        · exact ⟨other, inRest, span', located', lower, upper⟩
      rcases step with ⟨behind, skipped⟩ | ⟨more, grown⟩
      · rw [skipped]
        apply ih _ sameAfter restAscending restStored
        · intro other member
          exact ahead other (List.mem_of_mem_tail member)
        · intro position fromCovered inside
          exact restCovers position fromCovered (by dsimp only at fromCovered; omega) inside
      · rw [grown]
        dsimp only
        split_ifs with done
        · exact done
        · have stop : min (start + rows.length) wanted = start + rows.length := by omega
          rw [stop]
          apply ih _ sameAfter restAscending restStored
          · intro other member
            cases rest with
            | nil => simp at member
            | cons next later =>
              obtain ⟨nextSpan, nextLocated⟩ := restStored next (by simp)
              have apart := consistent.separated query start next span nextSpan located
                nextLocated (first next (by simp))
              have after := (List.pairwise_cons.mp restAscending).1 other member
              dsimp only
              omega
          · intro position fromCovered inside
            dsimp only at fromCovered
            exact restCovers position (by omega) fromCovered inside

/-- Reading changes recency and the counters. -/
structure Reads (before after : CacheState Row) : Prop where
  spans : SameSpans before.lru after.lru
  groups : after.groups = before.groups
  used : after.usedBytes = before.usedBytes
  budget : after.budgetBytes = before.budgetBytes

section Lookup

variable {live : Epochs} {state : CacheState Row} {query : QueryKey}

theorem Reads.refl (state : CacheState Row) : Reads state state :=
  ⟨⟨fun _ => rfl, rfl⟩, rfl, rfl, rfl⟩

theorem lookup_rows_reads (live : Epochs) (state : CacheState Row) (query : QueryKey)
    (offset : UInt64) (limit : Option UInt64) : Reads state (lookupRows live state query offset limit).1 := by
  unfold lookupRows
  dsimp only
  split_ifs
  · exact Reads.refl state
  · split
    · exact ⟨⟨fun _ => rfl, rfl⟩, rfl, rfl, rfl⟩
    · rename_i group located
      split_ifs
      · exact ⟨⟨fun _ => rfl, rfl⟩, rfl, rfl, rfl⟩
      · split
        · exact ⟨⟨fun _ => rfl, rfl⟩, rfl, rfl, rfl⟩
        · rename_i wanted _
          split_ifs with past
          · exact ⟨⟨fun _ => rfl, rfl⟩, rfl, rfl, rfl⟩
          · split
            · exact ⟨⟨fun _ => rfl, rfl⟩, rfl, rfl, rfl⟩
            · rename_i first _
              have below : offset.toNat < wanted := by omega
              have gathered := gather_spans_same state.lru query below
                (group.starts.range first wanted)
              split_ifs
              · exact ⟨gathered, rfl, rfl, rfl⟩
              · exact ⟨gathered, rfl, rfl, rfl⟩

theorem lookup_count_reads (live : Epochs) (state : CacheState Row) (query : QueryKey) :
    Reads state (lookupCount live state query).1 := by
  unfold lookupCount
  split_ifs
  · exact Reads.refl state
  · split
    · exact ⟨⟨fun _ => rfl, rfl⟩, rfl, rfl, rfl⟩
    · split_ifs
      · exact ⟨⟨fun _ => rfl, rfl⟩, rfl, rfl, rfl⟩
      · split
        · exact ⟨⟨fun _ => rfl, rfl⟩, rfl, rfl, rfl⟩
        · rename_i span lru found
          have same : SameSpans state.lru lru := SameSpans.get ⟨fun _ => rfl, rfl⟩ found
          split
          · exact ⟨same, rfl, rfl, rfl⟩
          · exact ⟨same, rfl, rfl, rfl⟩

theorem lookup_rows_hit {offset : UInt64} {limit : Option UInt64} {answer : List Row}
    (hit : (lookupRows live state query offset limit).2 = .hit answer) :
    state.budgetBytes ≠ 0 ∧ ∃ group wanted, state.groups.lookup query = some group ∧
      group.isCurrent live query = true ∧
      wantEnd offset.toNat (limit.map UInt64.toNat) group.knownEnd = some wanted ∧
      ((wanted ≤ offset.toNat ∧ answer = []) ∨
        (offset.toNat < wanted ∧ ∃ starts,
          wanted ≤ (gatherSpans query wanted starts
            { lru := state.lru, rows := [], covered := offset.toNat }).covered ∧
          answer = (gatherSpans query wanted starts
            { lru := state.lru, rows := [], covered := offset.toNat }).rows)) := by
  unfold lookupRows at hit
  dsimp only at hit
  split_ifs at hit with disabled
  refine ⟨disabled, ?_⟩
  split at hit
  · cases hit
  · rename_i group located
    split_ifs at hit with outdated
    split at hit
    · cases hit
    · rename_i wanted wantedIs
      refine ⟨group, wanted, located, by simpa using outdated, wantedIs, ?_⟩
      split_ifs at hit with past
      · cases hit
        exact Or.inl ⟨past, rfl⟩
      · right
        split at hit
        · cases hit
        · rename_i first _
          split_ifs at hit with reached
          cases hit
          exact ⟨by omega, group.starts.range first wanted, reached, rfl⟩

theorem tail_above {starts : List Nat} {low start : Nat} (ascending : starts.Pairwise (· < ·))
    (above : ∀ other ∈ starts, low ≤ other) (member : start ∈ starts.tail) : low < start := by
  cases starts with
  | nil => simp at member
  | cons head rest =>
    have first := above head (by simp)
    have later := (List.pairwise_cons.mp ascending).1 start member
    omega

theorem lookup_rows_covered (consistent : Consistent state) {group : GroupIndex}
    {offset : UInt64} {limit : Option UInt64} (enabled : state.budgetBytes ≠ 0)
    (located : state.groups.lookup query = some group) (current : group.isCurrent live query = true)
    (wantedIs : wantEnd offset.toNat (limit.map UInt64.toNat) group.knownEnd = some wanted)
    (covered : ∀ position, offset.toNat ≤ position → position < wanted →
      Covered state query position) :
    ∃ answer, (lookupRows live state query offset limit).2 = .hit answer := by
  unfold lookupRows
  dsimp only
  rw [if_neg enabled, located]
  simp only [current, wantedIs, Bool.not_true, Bool.false_eq_true, if_false]
  by_cases past : wanted ≤ offset.toNat
  · exact ⟨[], by simp [past]⟩
  · rw [if_neg past]
    have startOf : ∀ position, offset.toNat ≤ position → position < wanted →
        ∃ start ∈ group.starts, ∃ span, state.lru.lookup ⟨query, start⟩ = some span ∧
          start ≤ position ∧ position < start + span.rowLen := by
      intro position lower upper
      obtain ⟨start, span, stored, first, last⟩ := covered position lower upper
      obtain ⟨other, locatedOther, member⟩ := consistent.stored_start stored
      obtain rfl := Option.some.inj (located.symm.trans locatedOther)
      exact ⟨start, member, span, stored, first, last⟩
    obtain ⟨begin, beginMember, beginSpan, beginStored, beginLower, beginUpper⟩ :=
      startOf offset.toNat (Nat.le_refl _) (by omega)
    cases found : group.starts.lastLe offset.toNat with
    | none =>
      have above := SortedSet.last_le_eq_none found beginMember
      omega
    | some first =>
      obtain ⟨firstMember, firstLe, greatest⟩ := SortedSet.last_le_eq_some found
      have beginFirst : begin = first := by
        have below := greatest begin beginMember beginLower
        obtain ⟨firstSpan, firstStored⟩ := consistent.start_stored located firstMember
        by_contra different
        have apart := consistent.separated query begin first beginSpan firstSpan beginStored
          firstStored (by omega)
        omega
      have reaches : wanted ≤ (gatherSpans query wanted (group.starts.range first wanted)
          { lru := state.lru, rows := [], covered := offset.toNat }).covered := by
        apply gather_spans_reaches consistent _ _ ⟨fun _ => rfl, rfl⟩
          (group.starts.range_ascending first wanted)
        · intro start member
          exact consistent.start_stored located (SortedSet.mem_range.mp member).1
        · intro start member
          have inRange := SortedSet.mem_range.mp (List.mem_of_mem_tail member)
          have above := tail_above (group.starts.range_ascending first wanted)
            (fun other inList => (SortedSet.mem_range.mp inList).2.1) member
          by_contra within
          have atMost := greatest start inRange.1 (by simpa using within)
          omega
        · intro position lower upper
          obtain ⟨start, member, span, stored, below, above⟩ := startOf position lower upper
          have fromFirst : first ≤ start := by
            obtain ⟨firstSpan, firstStored⟩ := consistent.start_stored located firstMember
            by_contra earlier
            have apart := consistent.separated query start first span firstSpan stored
              firstStored (by omega)
            dsimp only at lower
            omega
          exact ⟨start, SortedSet.mem_range.mpr ⟨member, fromFirst, by omega⟩, span, stored,
            below, above⟩
      dsimp only
      rw [if_pos reaches]
      exact ⟨_, rfl⟩

end Lookup

end Panoptikon.SearchCache
