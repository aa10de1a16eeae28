import Panoptikon.SearchCache.Contents

/-!
# What an insert does to the windows that hit

Filling a group only adds coverage, so a window that hit can stop hitting only
because the known end moved away from it. An insert of the group's own
generation moves the end outwards exactly when it starts beyond it.
-/

namespace Panoptikon.SearchCache

open Foundation Foundation.Words Foundation.Intervals Foundation.KeyedMap

variable {Row : Type}

/-- The group is live, its end is known, and an execution with a positive limit
started beyond it. -/
def Oversteps (world : World Row) (query : QueryKey) (offset : UInt64)
    (executedLimit : Option UInt64) : Prop :=
  world.cache.budgetBytes ≠ 0 ∧ executedLimit ≠ some 0 ∧
    ∃ group last, world.cache.groups.lookup query = some group ∧
      group.isCurrent world.live query = true ∧ group.knownEnd = some last ∧
      last < offset.toNat

theorem epoch_order_stamp (group : GroupIndex) : CacheState.epochOrder group.stamp group = .same := by
  unfold CacheState.epochOrder GroupIndex.stamp
  cases group.userDataEpoch <;> simp

variable {state : CacheState Row} {query : QueryKey} {group : GroupIndex}

theorem reconcile_epochs_stamp (located : state.groups.lookup query = some group) :
    state.reconcileEpochs query group.stamp = (state, true) := by
  simp [CacheState.reconcileEpochs, located, epoch_order_stamp]

theorem lookup_rows_hit_covered {live : Epochs} {offset : UInt64} {limit : Option UInt64} {answer : List Row}
    (hit : (lookupRows live state query offset limit).2 = .hit answer) :
    state.budgetBytes ≠ 0 ∧ ∃ group wanted, state.groups.lookup query = some group ∧
      group.isCurrent live query = true ∧
      wantEnd offset.toNat (limit.map UInt64.toNat) group.knownEnd = some wanted ∧
      ∀ position, offset.toNat ≤ position → position < wanted → Covered state query position := by
  obtain ⟨enabled, group, wanted, located, current, wantedIs, source⟩ := lookup_rows_hit hit
  refine ⟨enabled, group, wanted, located, current, wantedIs, ?_⟩
  intro position lower upper
  rcases source with ⟨past, _⟩ | ⟨below, starts, reached, _⟩
  · omega
  · exact gather_spans_covered below starts lower (by omega)

theorem Filled.covered {before after : CacheState Row} {query other : QueryKey} {offset : Nat} {limit : Option Nat}
    {rows : List Row}
    (filled : Filled before query group offset limit rows after) {position : Nat}
    (covered : Covered before other position) : Covered after other position := by
  obtain ⟨start, span, stored, lower, upper⟩ := covered
  exact ⟨start, span, filled.kept ⟨other, start⟩ span stored (Or.inr (by omega)), lower, upper⟩

/-- An end that does not move outwards cuts no window later than before. -/
theorem want_end_inwards {offset wanted : Nat} {limit known noted : Option Nat}
    (wantedIs : wantEnd offset limit known = some wanted) (stays : known.isSome → noted.isSome)
    (inwards : ∀ last, known = some last → ∀ later, noted = some later → later ≤ last) :
    ∃ nearer, wantEnd offset limit noted = some nearer ∧ nearer ≤ wanted := by
  cases known with
  | none =>
    cases limit with
    | none => cases wantedIs
    | some limit =>
      obtain rfl : saturatingAdd offset limit = wanted := Option.some.inj wantedIs
      cases noted with
      | none => exact ⟨_, rfl, Nat.le_refl _⟩
      | some later => exact ⟨_, rfl, Nat.min_le_left _ _⟩
  | some last =>
    cases noted with
    | none => simp at stays
    | some later =>
      have nearer := inwards last rfl later rfl
      cases limit with
      | none =>
        obtain rfl : last = wanted := Option.some.inj wantedIs
        exact ⟨later, rfl, nearer⟩
      | some limit =>
        obtain rfl : min (saturatingAdd offset limit) last = wanted :=
          Option.some.inj wantedIs
        exact ⟨_, rfl, by omega⟩

theorem Faithful.covered_in_rows {truth : Truth Row} (faithful : Faithful truth state)
    (located : state.groups.lookup query = some group) {position : Nat}
    (covered : Covered state query position) : position < (truth query group.stamp).rows.length := by
  obtain ⟨start, span, stored, lower, upper⟩ := covered
  cases value : span.value with
  | count total =>
    simp only [Span.rowLen, value, SpanValue.rowLen] at upper
    omega
  | rows rows =>
    have slice := (faithful.slices query group located start span rows stored value).length_le
    simp only [Span.rowLen, value, SpanValue.rowLen, List.length_drop] at upper slice
    omega

section Noted

variable {group : GroupIndex} {truth rows : List Row} {offset : Nat} {limit : Option Nat}

theorem noted_end_stays (known : group.knownEnd.isSome) : (notedEnd group offset rows.length limit).isSome := by
  unfold notedEnd
  split_ifs
  · rfl
  · exact known

/-- An exact insert that does not start beyond the known end keeps it or moves
it inwards. -/
theorem noted_end_inwards (cut : rows = window truth offset limit)
    (ends : ∀ last, group.knownEnd = some last → truth.length ≤ last)
    (within : limit = some 0 ∨ ∀ last, group.knownEnd = some last → offset ≤ last) :
    ∀ last, group.knownEnd = some last → ∀ later,
      notedEnd group offset rows.length limit = some later → later ≤ last := by
  intro last known later noted
  unfold notedEnd at noted
  split_ifs at noted with short
  · obtain rfl := Option.some.inj noted
    have length := (cut ▸ window_prefix truth offset limit : rows <+: truth.drop offset).length_le
    rw [List.length_drop] at length
    have reached := ends last known
    have starts : offset ≤ last := by
      rcases within with rfl | inside
      · simp at short
      · exact inside last known
    have sum := saturating_add_le offset rows.length
    omega
  · rw [known] at noted
    exact (Option.some.inj noted).ge

theorem noted_end_outwards (cut : rows = window truth offset limit)
    (unpaginated : limit = none → offset = 0) (positive : limit ≠ some 0)
    (beyond : truth.length < offset) (word : offset ≤ wordMax) :
    notedEnd group offset rows.length limit = some offset := by
  cases limit with
  | none =>
    have atStart := unpaginated rfl
    omega
  | some limit =>
    have noRows : rows.length = 0 := by
      rw [cut]
      simp only [window, List.length_take, List.length_drop]
      omega
    have some_limit : 0 < limit := by
      by_contra zero
      exact positive (by simp; omega)
    have short : (some limit).all (rows.length < ·) = true := by simp [noRows, some_limit]
    rw [notedEnd, if_pos short, noRows, saturating_add_of_le (by omega), Nat.add_zero]

end Noted

section Insert

variable [JsonSized Row]

/-- The insert fits the budget: it evicts nothing. -/
def Affordable (state : CacheState Row) (query : QueryKey) (snapshot : EpochSnapshot)
    (offset : UInt64) (executedLimit : Option UInt64) (rows : List Row) : Prop :=
  (fillGroup (state.reconcileEpochs query snapshot).1 query offset.toNat
    (executedLimit.map UInt64.toNat) rows).usedBytes ≤ state.budgetBytes

section Keeps

variable {truth : Truth Row} {world : World Row} {query : QueryKey} {snapshot : EpochSnapshot}
  {offset : UInt64} {executedLimit : Option UInt64} {rows : List Row}

/-- Without overstepping, coverage and the known end only move in favour of a
window that hit. -/
theorem insert_rows_still_hits (kept : Kept world.cache) (faithful : Faithful truth world.cache)
    (cut : rows = window (truth query snapshot).rows offset.toNat
      (executedLimit.map UInt64.toNat))
    (sameGeneration : ∀ group, world.cache.groups.lookup query = some group →
      group.stamp = snapshot)
    (affordable : Affordable world.cache query snapshot offset executedLimit rows)
    (within : ¬Oversteps world query offset executedLimit) {other : QueryKey}
    {first : UInt64} {limit : Option UInt64} {answer : List Row}
    (hit : (lookupRows world.live world.cache other first limit).2 = .hit answer) :
    ∃ later, (lookupRows world.live
      (insertRows world.cache query snapshot offset executedLimit rows) other first limit).2 =
        .hit later := by
  rcases insert_rows_cases kept.consistent query snapshot offset executedLimit rows with
    same | ⟨base, group, _, prepared, accepted, inserted, filled⟩
  · rw [same]
    exact ⟨answer, hit⟩
  · obtain ⟨enabled, owner, wanted, located, current, wantedIs, covered⟩ :=
      lookup_rows_hit_covered hit
    have fits : insertRows world.cache query snapshot offset executedLimit rows =
        fillGroup base query offset.toNat (executedLimit.map UInt64.toNat) rows := by
      rw [inserted]
      apply evict_fits
      rw [filled.budget, prepared.budget]
      simpa [Affordable, accepted] using affordable
    rw [fits]
    have stillEnabled : (fillGroup base query offset.toNat (executedLimit.map UInt64.toNat)
        rows).budgetBytes ≠ 0 := by
      rw [filled.budget, prepared.budget]
      exact enabled
    by_cases sameQuery : other = query
    · subst sameQuery
      have reconciled := reconcile_epochs_stamp located
      rw [sameGeneration owner located, accepted] at reconciled
      obtain rfl : base = world.cache := congrArg Prod.fst reconciled
      obtain rfl := Option.some.inj (prepared.located.symm.trans located)
      obtain ⟨starts, _, finalGroup, _⟩ := filled.group
      have ends := faithful.ends other group located
      rw [prepared.stamp] at ends
      have inside : executedLimit.map UInt64.toNat = some 0 ∨
          ∀ last, group.knownEnd = some last → offset.toNat ≤ last := by
        by_cases zero : executedLimit = some 0
        · left
          simp [zero]
        · right
          intro last known
          by_contra beyond
          exact within ⟨enabled, zero, group, last, located, current, known, by omega⟩
      obtain ⟨nearer, nearerIs, atMost⟩ := want_end_inwards wantedIs noted_end_stays
        (noted_end_inwards cut ends inside)
      apply lookup_rows_covered filled.consistent stillEnabled finalGroup current nearerIs
      intro position lower upper
      exact filled.covered (covered position lower (by omega))
    · have sameOwner : base.groups.lookup other = some owner ∧
          ∀ position, Covered world.cache other position → Covered base other position := by
        rcases prepared.origin with rfl | fresh
        · exact ⟨located, fun _ stored => stored⟩
        · refine ⟨by rw [fresh.otherGroups other sameQuery, located], ?_⟩
          rintro position ⟨start, span, stored, bounds⟩
          exact ⟨start, span, by rw [fresh.spans, if_neg sameQuery, stored], bounds⟩
      apply lookup_rows_covered filled.consistent stillEnabled
        ((filled.otherGroups other sameQuery).trans sameOwner.1) current wantedIs
      intro position lower upper
      exact filled.covered (sameOwner.2 position (covered position lower upper))

/-- Overstepping turns the empty page at the old end from a hit into a miss. -/
theorem overstep_loses_hit (kept : Kept world.cache) (faithful : Faithful truth world.cache)
    (exact_ : Exact truth (.insertRows query snapshot offset executedLimit rows))
    (sameGeneration : ∀ group, world.cache.groups.lookup query = some group →
      group.stamp = snapshot)
    (affordable : Affordable world.cache query snapshot offset executedLimit rows)
    (overrun : Oversteps world query offset executedLimit) :
    ∃ first limit, (lookupRows world.live world.cache query first limit).2 = .hit [] ∧
      ∀ later, (lookupRows world.live
        (insertRows world.cache query snapshot offset executedLimit rows) query first limit).2 ≠
          .hit later := by
  obtain ⟨enabled, positive, group, last, located, current, known, beyond⟩ := overrun
  obtain ⟨unpaginated, cut⟩ := exact_
  have stamp := sameGeneration group located
  have ends := faithful.ends query group located last known
  rw [stamp] at ends
  have accepted := reconcile_epochs_stamp located
  rw [stamp] at accepted
  have filled := fill_group kept.consistent located (word_le offset)
    (executedLimit.map UInt64.toNat) rows
  have fits : insertRows world.cache query snapshot offset executedLimit rows =
      fillGroup world.cache query offset.toNat (executedLimit.map UInt64.toNat) rows := by
    simp only [insertRows, if_neg enabled, accepted]
    apply evict_fits
    rw [filled.budget]
    simpa [Affordable, accepted] using affordable
  have fitsWord : last < 2 ^ 64 := by
    have word := offset.toNat_lt
    omega
  have firstIs : (UInt64.ofNat last).toNat = last := UInt64.toNat_ofNat_of_lt fitsWord
  have saturated : saturatingAdd last 1 = last + 1 := saturating_add_of_le (by
    have word := word_le offset
    omega)
  refine ⟨UInt64.ofNat last, some 1, ?_, ?_⟩
  · simp [lookupRows, enabled, located, current, known, wantEnd, firstIs, saturated]
  · intro later hit
    rw [fits] at hit
    obtain ⟨starts, _, finalGroup, _⟩ := filled.group
    have outwards : notedEnd group offset.toNat rows.length (executedLimit.map UInt64.toNat) =
        some offset.toNat := by
      apply noted_end_outwards cut
      · intro unlimited
        rw [unpaginated (Option.map_eq_none_iff.mp unlimited)]
        rfl
      · intro zero
        obtain ⟨limit, rfl, isZero⟩ := Option.map_eq_some_iff.mp zero
        have zeroLimit : limit = 0 := UInt64.toNat_inj.mp isZero
        exact positive (by rw [zeroLimit])
      · omega
      · exact word_le offset
    obtain ⟨_, owner, wanted, finalLocated, _, wantedIs, covered⟩ := lookup_rows_hit_covered hit
    obtain rfl := Option.some.inj (finalGroup.symm.trans finalLocated)
    rw [outwards, firstIs] at wantedIs
    have wantedValue : min (saturatingAdd last 1) offset.toNat = wanted :=
      Option.some.inj wantedIs
    have after : Faithful truth
        (fillGroup world.cache query offset.toNat (executedLimit.map UInt64.toNat) rows) :=
      faithful_filled cut stamp located filled faithful
    have inRows := after.covered_in_rows finalGroup (covered last (by omega) (by omega))
    change last < (truth query group.stamp).rows.length at inRows
    rw [stamp] at inRows
    omega

end Keeps

/-- After any run of exact inserts, an affordable exact insert of the group's
generation keeps every hit, with its rows, if and only if it does not overstep. -/
theorem insert_keeps_hits_iff (truth : Truth Row) (ops : List (Op Row))
    (exact_ : ∀ op ∈ ops, Exact truth op) (query : QueryKey) (snapshot : EpochSnapshot)
    (offset : UInt64) (executedLimit : Option UInt64) (rows : List Row)
    (exactInsert : Exact truth (.insertRows query snapshot offset executedLimit rows))
    (sameGeneration : ∀ group,
      ((machine Row).run ops).cache.groups.lookup query = some group → group.stamp = snapshot)
    (affordable : Affordable ((machine Row).run ops).cache query snapshot offset executedLimit
      rows) :
    (∀ other first limit answer,
      (lookupRows ((machine Row).run ops).live ((machine Row).run ops).cache other first limit).2 =
        .hit answer →
      (lookupRows ((machine Row).run ops).live
        (insertRows ((machine Row).run ops).cache query snapshot offset executedLimit rows)
        other first limit).2 = .hit answer) ↔
      ¬Oversteps ((machine Row).run ops) query offset executedLimit := by
  obtain ⟨kept, faithful⟩ := run_contents (faithful_contents truth) ops
    ((machine Row).admitted_run_of_forall exact_)
  have after := step_contents (faithful_contents truth) ((machine Row).run ops)
    (.insertRows query snapshot offset executedLimit rows) kept exactInsert faithful
  constructor
  · intro keeps overrun
    obtain ⟨first, limit, hit, lost⟩ :=
      overstep_loses_hit kept faithful exactInsert sameGeneration affordable overrun
    exact lost [] (keeps query first limit [] hit)
  · intro within other first limit answer hit
    obtain ⟨later, stillHit⟩ := insert_rows_still_hits kept faithful exactInsert.2 sameGeneration
      affordable within hit
    rw [stillHit, after.answer stillHit, faithful.answer hit]

end Insert

/-- The whole result, then a page beyond it. -/
def sampleTailFirst : List (Op JsonRow) :=
  [.setBudgetMb 1, .insertRows sampleQuery ⟨0, none⟩ 0 (some 5) [⟨"1"⟩, ⟨"2"⟩, ⟨"3"⟩]]

theorem sample_tail_first_exact : ∀ op ∈ sampleTailFirst, Exact sampleTruth op := by
  simp [sampleTailFirst, sampleTruth, Exact, window]

theorem sample_tail_first_generation : ∀ group,
    ((machine JsonRow).run sampleTailFirst).cache.groups.lookup sampleQuery = some group →
      group.stamp = ⟨0, none⟩ := by
  intro group located
  have stamps : (((machine JsonRow).run sampleTailFirst).cache.groups.lookup sampleQuery).map
      GroupIndex.stamp = some ⟨0, none⟩ := by decide
  rw [located] at stamps
  exact Option.some.inj stamps

theorem insert_keeps_hits_iff_inside :
    (∀ other first limit answer,
      (lookupRows ((machine JsonRow).run sampleTailFirst).live
        ((machine JsonRow).run sampleTailFirst).cache other first limit).2 = .hit answer →
      (lookupRows ((machine JsonRow).run sampleTailFirst).live
        (insertRows ((machine JsonRow).run sampleTailFirst).cache sampleQuery ⟨0, none⟩ 1
          (some 1) [⟨"2"⟩])
        other first limit).2 = .hit answer) ↔
      ¬Oversteps ((machine JsonRow).run sampleTailFirst) sampleQuery 1 (some 1) :=
  insert_keeps_hits_iff sampleTruth sampleTailFirst sample_tail_first_exact sampleQuery ⟨0, none⟩
    1 (some 1) [⟨"2"⟩] ⟨by simp, by simp [sampleTruth, window]⟩ sample_tail_first_generation
    (by unfold Affordable; decide)

/-- The empty page at offset three hits until the page at offset seven is
inserted. -/
theorem insert_beyond_end_loses_hit :
    ¬∀ ops : List (Op JsonRow), (∀ op ∈ ops, Exact sampleTruth op) →
      ∀ query snapshot offset executedLimit rows,
        Exact sampleTruth (.insertRows query snapshot offset executedLimit rows) →
        (∀ group, ((machine JsonRow).run ops).cache.groups.lookup query = some group →
          group.stamp = snapshot) →
        Affordable ((machine JsonRow).run ops).cache query snapshot offset executedLimit rows →
        ∀ first limit answer,
          (lookupRows ((machine JsonRow).run ops).live ((machine JsonRow).run ops).cache query
            first limit).2 = .hit answer →
          (lookupRows ((machine JsonRow).run ops).live
            (insertRows ((machine JsonRow).run ops).cache query snapshot offset executedLimit rows)
            query first limit).2 = .hit answer := by
  intro claim
  have exactInsert : Exact sampleTruth (.insertRows sampleQuery ⟨0, none⟩ 7 (some 10) []) :=
    ⟨by simp, by simp [sampleTruth, window]⟩
  have affordable : Affordable ((machine JsonRow).run sampleTailFirst).cache sampleQuery
      ⟨0, none⟩ 7 (some 10) [] := by
    unfold Affordable
    decide
  have before : (lookupRows ((machine JsonRow).run sampleTailFirst).live
      ((machine JsonRow).run sampleTailFirst).cache sampleQuery 3 (some 1)).2 = .hit [] := by
    decide
  have after : (lookupRows ((machine JsonRow).run sampleTailFirst).live
      (insertRows ((machine JsonRow).run sampleTailFirst).cache sampleQuery ⟨0, none⟩ 7
        (some 10) []) sampleQuery 3 (some 1)).2 = .miss := by
    decide
  have kept := claim sampleTailFirst sample_tail_first_exact sampleQuery ⟨0, none⟩ 7 (some 10) []
    exactInsert sample_tail_first_generation affordable 3 (some 1) [] before
  rw [after] at kept
  cases kept

end Panoptikon.SearchCache
