import Mathlib.Data.List.Infix
import Panoptikon.SearchCache.Accounting

/-!
# What the stored rows say

`truth` fixes, for each query and each pair of epochs, the rows that query
has. When every insert carries a window of it, the spans of a group are slices
of the rows of the group's own generation, and a hit answers with the window
of the live generation. Every operation but the inserts only shrinks what is
stored, so the argument is about the two inserts.
-/

namespace Panoptikon.SearchCache

open Foundation Foundation.Words Foundation.Intervals Foundation.KeyedMap

variable {Row : Type}

/-- A result set short enough for its positions to be words. -/
structure ResultSet (Row : Type) where
  rows : List Row
  fits : rows.length ≤ wordMax

abbrev Truth (Row : Type) := QueryKey → EpochSnapshot → ResultSet Row

def window (rows : List Row) (offset : Nat) : Option Nat → List Row
  | some limit => (rows.drop offset).take limit
  | none => rows.drop offset

/-- An insert of rows carries the window it was asked for, unpaginated ones the
whole result set. -/
def Exact (truth : Truth Row) : Op Row → Prop
  | .insertRows query snapshot offset executedLimit rows =>
      (executedLimit = none → offset = 0) ∧
        rows = window (truth query snapshot).rows offset.toNat (executedLimit.map UInt64.toNat)
  | _ => True

/-- Everything stored afterwards was stored before, in a group of the same
generation with the same known end. -/
structure Shrinks (before after : CacheState Row) : Prop where
  groups : ∀ query group, after.groups.lookup query = some group →
    ∃ earlier, before.groups.lookup query = some earlier ∧ earlier.stamp = group.stamp ∧
      earlier.knownEnd = group.knownEnd
  spans : ∀ key span, after.lru.lookup key = some span → before.lru.lookup key = some span

theorem Shrinks.refl (state : CacheState Row) : Shrinks state state where
  groups _ group located := ⟨group, located, rfl, rfl⟩
  spans _ _ stored := stored

theorem Shrinks.trans {before middle after : CacheState Row} (first : Shrinks before middle)
    (second : Shrinks middle after) : Shrinks before after where
  groups query group located := by
    obtain ⟨inMiddle, locatedMiddle, stamp, known⟩ := second.groups query group located
    obtain ⟨earlier, locatedBefore, stampBefore, knownBefore⟩ :=
      first.groups query inMiddle locatedMiddle
    exact ⟨earlier, locatedBefore, stampBefore.trans stamp, knownBefore.trans known⟩
  spans key span stored := first.spans key span (second.spans key span stored)

variable {before after : CacheState Row}

theorem Shrinks.emptied (emptied : Emptied after) : Shrinks before after where
  groups query group located := by simp [emptied.groups] at located
  spans key span stored := by simp [emptied.lru] at stored

theorem Reads.shrinks (reads : Reads before after) : Shrinks before after where
  groups query group located := ⟨group, by rw [← reads.groups, located], rfl, rfl⟩
  spans key span stored := by rw [← reads.spans.1 key, stored]

variable {state : CacheState Row}

theorem drop_span_shrinks {key : SpanKey} {span : Span Row}
    (consistent : Consistent state) (stored : state.lru.lookup key = some span) :
    Shrinks state (dropSpan state key span) where
  groups query group located := by
    obtain ⟨owner, ownerLocated, _⟩ := consistent.stored_start stored
    rw [drop_span_group ownerLocated] at located
    split_ifs at located with same empty
    · obtain rfl := Option.some.inj located
      exact ⟨owner, by rw [same, ownerLocated], rfl, rfl⟩
    · exact ⟨group, located, rfl, rfl⟩
  spans other span' found := by
    rw [drop_span_lru, lookup_erase_eq] at found
    split_ifs at found
    exact found

theorem evict_shrinks (consistent : Consistent state) : Shrinks state state.evictToBudget := by
  refine (evict_induction (fun later => Consistent later ∧ Shrinks state later) ?_ ?_ state
    ⟨consistent, Shrinks.refl state⟩).1.2
  · intro later key span ⟨laterConsistent, shrinks⟩ stored
    have dropped := drop_span_consistent laterConsistent stored
    have smaller := shrinks.trans (drop_span_shrinks laterConsistent stored)
    exact ⟨dropped.congr (fun _ => rfl) rfl rfl rfl, smaller.groups, smaller.spans⟩
  · intro later _ exhausted
    have emptied : Emptied { later with groups := ∅, usedBytes := 0 } := ⟨exhausted, rfl, rfl⟩
    exact ⟨(Kept.emptied emptied).consistent, Shrinks.emptied emptied⟩

theorem drop_group_shrinks (consistent : Consistent state)
    (query : QueryKey) : Shrinks state (state.dropGroup query) := by
  cases located : state.groups.lookup query with
  | none =>
    rw [drop_group_absent located]
    exact Shrinks.refl state
  | some group =>
    obtain ⟨_, groups, _, lookup⟩ := drop_group_stored consistent located
    constructor
    · intro other kept found
      rw [groups, lookup_erase_eq, lookup_insert_eq] at found
      split_ifs at found
      exact ⟨kept, found, rfl, rfl⟩
    · intro key span found
      rw [lookup key] at found
      split_ifs at found
      exact found

section Run

variable [JsonSized Row]

/-- An invariant of the contents: it survives shrinking, and both inserts
before they evict. -/
structure ContentInvariant (Admitted : CacheState Row → Op Row → Prop)
    (Invariant : CacheState Row → Prop) : Prop where
  initial : Invariant (CacheState.new Row)
  shrinks : ∀ before after, Invariant before → Shrinks before after → Invariant after
  filled : ∀ state query snapshot offset executedLimit rows base group after,
    Admitted state (.insertRows query snapshot offset executedLimit rows) →
    state.budgetBytes ≠ 0 → Prepared state query snapshot base group →
    state.reconcileEpochs query snapshot = (base, true) →
    Filled base query group offset.toNat (executedLimit.map UInt64.toNat) rows after →
    Invariant state → Invariant after
  counted : ∀ state query snapshot total base group,
    Prepared state query snapshot base group → Invariant state →
    Invariant (base.storeSpan ⟨query, 0⟩ (.count total))

theorem step_contents {Admitted : CacheState Row → Op Row → Prop}
    {Invariant : CacheState Row → Prop} (contents : ContentInvariant Admitted Invariant)
    (world : World Row) (op : Op Row) (kept : Kept world.cache)
    (admitted : Admitted world.cache op) (holds : Invariant world.cache) : Invariant (step world op).cache := by
  cases op with
  | insertRows query snapshot offset executedLimit rows =>
    dsimp only [step]
    rcases insert_rows_cases kept.consistent query snapshot offset executedLimit rows with
      same | ⟨base, group, enabled, prepared, accepted, inserted, filled⟩
    · rw [same]
      exact holds
    · rw [inserted]
      have full := contents.filled world.cache query snapshot offset executedLimit rows base group
        _ admitted enabled prepared accepted filled holds
      exact contents.shrinks _ _ full (evict_shrinks filled.consistent)
  | insertCount query snapshot total =>
    dsimp only [step]
    rcases insert_count_cases kept.consistent query snapshot total with
      same | ⟨base, group, prepared, inserted, consistent⟩
    · rw [same]
      exact holds
    · rw [inserted]
      have full := contents.counted world.cache query snapshot total base group prepared holds
      exact contents.shrinks _ _ full (evict_shrinks consistent)
  | lookupRows query offset limit =>
    exact contents.shrinks _ _ holds
      (lookup_rows_reads world.live world.cache query offset limit).shrinks
  | lookupCount query =>
    exact contents.shrinks _ _ holds (lookup_count_reads world.live world.cache query).shrinks
  | setBudgetMb sizeMb =>
    apply contents.shrinks _ _ holds
    dsimp only [step]
    rcases set_budget_mb_cases world.cache sizeMb with emptied | ⟨budget, evicted⟩
    · exact Shrinks.emptied emptied
    · rw [evicted]
      have resized : Consistent { world.cache with budgetBytes := budget } :=
        kept.consistent.congr (fun _ => rfl) rfl rfl rfl
      have smaller := evict_shrinks resized
      exact ⟨smaller.groups, smaller.spans⟩
  | setBudgetLimitMb limitMb =>
    apply contents.shrinks _ _ holds
    dsimp only [step]
    rcases set_budget_limit_mb_cases world.cache limitMb with ⟨limit, same⟩ |
      ⟨budget, limit, evicted⟩
    · rw [same]
      have whole := Shrinks.refl world.cache
      exact ⟨whole.groups, whole.spans⟩
    · rw [evicted]
      have resized : Consistent
          { world.cache with budgetBytes := budget, limitBytes := limit } :=
        kept.consistent.congr (fun _ => rfl) rfl rfl rfl
      have smaller := evict_shrinks resized
      exact ⟨smaller.groups, smaller.spans⟩
  | clear indexDb userDataDb =>
    apply contents.shrinks _ _ holds
    dsimp only [step]
    rcases clear_cases world.cache indexDb userDataDb with emptied | ⟨queries, dropped⟩
    · exact Shrinks.emptied emptied
    · rw [dropped]
      refine (drop_groups_induction (fun state => Kept state ∧ Shrinks world.cache state)
        ?_ queries world.cache ⟨kept, Shrinks.refl _⟩).2
      rintro state query ⟨keptBefore, shrinks⟩
      exact ⟨drop_group_kept keptBefore query,
        shrinks.trans (drop_group_shrinks keptBefore.consistent query)⟩
  | bumpIndexEpoch | bumpUserDataEpoch => exact holds

theorem run_contents {Admitted : CacheState Row → Op Row → Prop}
    {Invariant : CacheState Row → Prop} (contents : ContentInvariant Admitted Invariant) (ops : List (Op Row))
    (admitted : (machine Row).AdmittedRun (fun world op => Admitted world.cache op) ops) :
    Kept ((machine Row).run ops).cache ∧ Invariant ((machine Row).run ops).cache := by
  apply (machine Row).run_invariant (fun world => Kept world.cache ∧ Invariant world.cache)
    (fun world op => Admitted world.cache op)
  · exact ⟨run_kept [], contents.initial⟩
  · rintro world op admitted ⟨kept, holds⟩
    exact ⟨step_kept world op kept, step_contents contents world op kept admitted holds⟩
  · exact admitted

end Run

/-- The spans of each group are slices of the rows of the group's generation,
and its known end is not short of them. -/
structure Faithful (truth : Truth Row) (state : CacheState Row) : Prop where
  slices : ∀ query group, state.groups.lookup query = some group →
    ∀ start span rows, state.lru.lookup ⟨query, start⟩ = some span → span.value = .rows rows →
      rows <+: (truth query group.stamp).rows.drop start
  ends : ∀ query group, state.groups.lookup query = some group →
    ∀ last, group.knownEnd = some last → (truth query group.stamp).rows.length ≤ last

variable {truth : Truth Row}

theorem Faithful.shrinks
    (faithful : Faithful truth before) (shrinks : Shrinks before after) : Faithful truth after where
  slices query group located start span rows stored value := by
    obtain ⟨earlier, locatedBefore, stamp, _⟩ := shrinks.groups query group located
    rw [← stamp]
    exact faithful.slices query earlier locatedBefore start span rows
      (shrinks.spans _ _ stored) value
  ends query group located last known := by
    obtain ⟨earlier, locatedBefore, stamp, knownBefore⟩ := shrinks.groups query group located
    rw [← stamp]
    exact faithful.ends query earlier locatedBefore last (knownBefore.trans known)

variable {query : QueryKey} {group : GroupIndex}

theorem Faithful.prepared {state base : CacheState Row} {snapshot : EpochSnapshot}
    (faithful : Faithful truth state) (prepared : Prepared state query snapshot base group) :
    Faithful truth base := by
  rcases prepared.origin with rfl | fresh
  · exact faithful
  · constructor
    · intro other stored located start span rows found value
      rw [fresh.spans] at found
      split_ifs at found with same
      rw [fresh.otherGroups other same] at located
      exact faithful.slices other stored located start span rows found value
    · intro other stored located last known
      by_cases same : other = query
      · subst same
        obtain ⟨emptied, emptiedLocated, _, unknown, _⟩ := fresh.group
        obtain rfl := Option.some.inj (emptiedLocated.symm.trans located)
        rw [unknown] at known
        cases known
      · rw [fresh.otherGroups other same] at located
        exact faithful.ends other stored located last known

theorem window_prefix (rows : List Row) (offset : Nat) (limit : Option Nat) :
    window rows offset limit <+: rows.drop offset := by
  cases limit with
  | none => exact List.prefix_refl _
  | some limit => exact List.take_prefix _ _

variable {offset : Nat}

theorem piece_rows_prefix {truth rows : List Row} {piece : Interval}
    (slice : rows <+: truth.drop offset) (above : offset ≤ piece.1) :
    pieceRows offset rows piece <+: truth.drop piece.1 := by
  have shifted := List.IsPrefix.drop slice (piece.1 - offset)
  rw [List.drop_drop, show offset + (piece.1 - offset) = piece.1 by omega] at shifted
  exact (List.take_prefix _ _).trans shifted

theorem short_window_ends {truth rows : List Row} {limit : Option Nat}
    (cut : rows = window truth offset limit) (short : limit.all (rows.length < ·) = true) :
    truth.length ≤ offset + rows.length := by
  cases limit with
  | none =>
    subst cut
    simp only [window, List.length_drop]
    omega
  | some limit =>
    subst cut
    simp only [window, List.length_take, List.length_drop, Option.all_some,
      decide_eq_true_eq] at short ⊢
    omega

variable {rows : List Row}

theorem faithful_filled {snapshot : EpochSnapshot} {limit : Option Nat} {base after : CacheState Row}
    (cut : rows = window (truth query snapshot).rows offset limit)
    (stamp : group.stamp = snapshot) (located : base.groups.lookup query = some group)
    (filled : Filled base query group offset limit rows after)
    (faithful : Faithful truth base) : Faithful truth after := by
  obtain ⟨starts, _, finalGroup, _⟩ := filled.group
  have sameStamp : ∀ final, after.groups.lookup query = some final → final.stamp = snapshot := by
    intro final finalLocated
    obtain rfl := Option.some.inj (finalGroup.symm.trans finalLocated)
    exact stamp
  constructor
  · intro other stored otherLocated start span held found value
    by_cases same : other = query
    · subst same
      rw [sameStamp stored otherLocated]
      rcases filled.added _ span found with old | ⟨_, piece, rfl, above, _, added⟩
      · rw [← stamp]
        exact faithful.slices other group located start span held old value
      · rw [added] at value
        cases value
        exact piece_rows_prefix (cut ▸ window_prefix _ _ _) above
    · rw [filled.otherGroups other same] at otherLocated
      rcases filled.added _ span found with old | ⟨sameQuery, _⟩
      · exact faithful.slices other stored otherLocated start span held old value
      · exact absurd sameQuery same
  · intro other stored otherLocated last known
    by_cases same : other = query
    · subst same
      obtain rfl := Option.some.inj (finalGroup.symm.trans otherLocated)
      rw [sameStamp _ finalGroup]
      dsimp only [notedEnd] at known
      split_ifs at known with short
      · obtain rfl := Option.some.inj known
        have reached := short_window_ends cut short
        have fits := (truth other snapshot).fits
        unfold saturatingAdd
        omega
      · rw [← stamp]
        exact faithful.ends other group located last known
    · rw [filled.otherGroups other same] at otherLocated
      exact faithful.ends other stored otherLocated last known

section Run

variable [JsonSized Row]

theorem faithful_contents (truth : Truth Row) : ContentInvariant (fun _ op => Exact truth op) (Faithful truth) where
  initial := by constructor <;> simp [CacheState.new]
  shrinks before after faithful shrinks := faithful.shrinks shrinks
  filled state query snapshot offset executedLimit rows base group after exact_ _ prepared _
      filled faithful := by
    obtain ⟨_, cut⟩ := exact_
    exact faithful_filled cut prepared.stamp prepared.located filled
      (faithful.prepared prepared)
  counted state query snapshot total base group prepared faithful := by
    have before := faithful.prepared prepared
    constructor
    · intro other stored located start span rows found value
      rw [store_span_groups prepared.located, lookup_insert_eq] at located
      rw [store_span_lookup] at found
      split_ifs at found
      · obtain rfl := Option.some.inj found
        cases value
      · split_ifs at located with same
        · obtain rfl := Option.some.inj located
          subst same
          exact before.slices other group prepared.located start span rows found value
        · exact before.slices other stored located start span rows found value
    · intro other stored located last known
      rw [store_span_groups prepared.located, lookup_insert_eq] at located
      split_ifs at located with same
      · obtain rfl := Option.some.inj located
        subst same
        exact before.ends other group prepared.located last known
      · exact before.ends other stored located last known

end Run

theorem current_stamp {live : Epochs} (current : group.isCurrent live query = true) :
    group.stamp = EpochSnapshot.take live query.indexDb query.userDataDb := by
  simp only [GroupIndex.isCurrent, Bool.and_eq_true, beq_iff_eq] at current
  simp [GroupIndex.stamp, EpochSnapshot.take, current.1, current.2]

theorem take_eq_of_all {left right : Nat} (same : left = right ∨ (rows.length ≤ left ∧ rows.length ≤ right)) :
    rows.take left = rows.take right := by
  rcases same with rfl | ⟨allLeft, allRight⟩
  · rfl
  · rw [List.take_of_length_le allLeft, List.take_of_length_le allRight]

/-- The window cut at a known end that is not short of the rows is the window. -/
theorem window_of_want_end {offset wanted : Nat} {limit known : Option Nat}
    (fits : rows.length ≤ wordMax) (ends : ∀ last, known = some last → rows.length ≤ last)
    (wantedIs : wantEnd offset limit known = some wanted) :
    (rows.drop offset).take (wanted - offset) = window rows offset limit := by
  cases limit with
  | none =>
    cases known with
    | none => cases wantedIs
    | some last =>
      obtain rfl : last = wanted := Option.some.inj wantedIs
      have reached := ends last rfl
      apply List.take_of_length_le
      simp only [List.length_drop]
      omega
  | some limit =>
    apply take_eq_of_all
    simp only [List.length_drop]
    cases known with
    | none =>
      obtain rfl : saturatingAdd offset limit = wanted := Option.some.inj wantedIs
      unfold saturatingAdd
      omega
    | some last =>
      have reached := ends last rfl
      obtain rfl : min (saturatingAdd offset limit) last = wanted := Option.some.inj wantedIs
      unfold saturatingAdd
      omega

theorem Faithful.answer (faithful : Faithful truth state) {live : Epochs} {offset : UInt64}
    {limit : Option UInt64} {answer : List Row}
    (hit : (lookupRows live state query offset limit).2 = .hit answer) : answer = window
      (truth query (EpochSnapshot.take live query.indexDb query.userDataDb)).rows
      offset.toNat (limit.map UInt64.toNat) := by
  obtain ⟨_, group, wanted, located, current, wantedIs, source⟩ := lookup_rows_hit hit
  rw [← current_stamp current]
  have ends := faithful.ends query group located
  have fits := (truth query group.stamp).fits
  rcases source with ⟨past, rfl⟩ | ⟨below, starts, reached, rfl⟩
  · have emptyWindow := window_of_want_end fits ends wantedIs
    rw [← emptyWindow, Nat.sub_eq_zero_of_le past, List.take_zero]
  · obtain ⟨rows, _, atMost⟩ := gather_spans_rows
      (fun start span rows stored value => List.prefix_iff_eq_take.mp
        (faithful.slices query group located start span rows stored value)) below starts
    have whole := Nat.le_antisymm atMost reached
    rw [whole] at rows
    rw [rows]
    exact window_of_want_end fits ends wantedIs

/-- Whatever ran before, in whatever order executions finished, a hit is the
window of the live generation. -/
theorem run_hit_exact [JsonSized Row] (truth : Truth Row) (ops : List (Op Row))
    (exact_ : ∀ op ∈ ops, Exact truth op) (query : QueryKey) (offset : UInt64)
    (limit : Option UInt64) (answer : List Row)
    (hit : (lookupRows ((machine Row).run ops).live ((machine Row).run ops).cache query offset
      limit).2 = .hit answer) :
    answer = window
      (truth query (EpochSnapshot.take ((machine Row).run ops).live query.indexDb
        query.userDataDb)).rows
      offset.toNat (limit.map UInt64.toNat) := by
  have faithful := (run_contents (faithful_contents truth) ops
    ((machine Row).admitted_run_of_forall exact_)).2
  exact faithful.answer hit

def sampleQuery : QueryKey := ⟨"default", none, "SELECT file_id FROM files", "[]"⟩

def sampleTruth : Truth JsonRow := fun _ _ => ⟨[⟨"1"⟩, ⟨"2"⟩, ⟨"3"⟩], by decide⟩

/-- Two overlapping executions of one three-row result. -/
def sampleOps : List (Op JsonRow) :=
  [.setBudgetMb 1,
   .insertRows sampleQuery ⟨0, none⟩ 0 (some 2) [⟨"1"⟩, ⟨"2"⟩],
   .insertRows sampleQuery ⟨0, none⟩ 1 (some 2) [⟨"2"⟩, ⟨"3"⟩]]

theorem sample_ops_exact : ∀ op ∈ sampleOps, Exact sampleTruth op := by
  simp [sampleOps, sampleTruth, Exact, window]

theorem run_hit_exact_across_spans :
    (lookupRows ((machine JsonRow).run sampleOps).live ((machine JsonRow).run sampleOps).cache
      sampleQuery 1 (some 2)).2 = .hit [⟨"2"⟩, ⟨"3"⟩] ∧
    [⟨"2"⟩, ⟨"3"⟩] = window
      (sampleTruth sampleQuery (EpochSnapshot.take ((machine JsonRow).run sampleOps).live
        sampleQuery.indexDb sampleQuery.userDataDb)).rows 1 (some 2) :=
  ⟨by decide, run_hit_exact sampleTruth sampleOps sample_ops_exact sampleQuery 1 (some 2)
    [⟨"2"⟩, ⟨"3"⟩] (by decide)⟩

end Panoptikon.SearchCache
