import Panoptikon.SearchCache.Contents

/-!
# Where a result set ends

A short read at or before the end of the rows finds the end. A read that
starts beyond it is short as well and records its own offset, so the known end
is the length of the rows exactly as long as no accepted insert overshoots.
-/

namespace Panoptikon.SearchCache

open Foundation Foundation.Words Foundation.Intervals Foundation.KeyedMap

variable {Row : Type}

/-- The cache takes an execution with a positive limit that started beyond the
end of its rows. -/
def Overshoots (truth : Truth Row) (state : CacheState Row) : Op Row → Prop
  | .insertRows query snapshot offset executedLimit _ =>
      state.budgetBytes ≠ 0 ∧ (state.reconcileEpochs query snapshot).2 = true ∧
        executedLimit ≠ some 0 ∧ (truth query snapshot).rows.length < offset.toNat
  | _ => False

def EndsAtLength (truth : Truth Row) (state : CacheState Row) : Prop :=
  ∀ query group, state.groups.lookup query = some group →
    ∀ last, group.knownEnd = some last → last = (truth query group.stamp).rows.length

theorem EndsAtLength.prepared {truth : Truth Row} {state base : CacheState Row}
    {query : QueryKey} {snapshot : EpochSnapshot} {group : GroupIndex}
    (ends : EndsAtLength truth state) (prepared : Prepared state query snapshot base group) :
    EndsAtLength truth base := by
  rcases prepared.origin with rfl | fresh
  · exact ends
  · intro other stored located last known
    by_cases same : other = query
    · subst same
      obtain ⟨emptied, emptiedLocated, _, unknown, _⟩ := fresh.group
      obtain rfl := Option.some.inj (emptiedLocated.symm.trans located)
      rw [unknown] at known
      cases known
    · rw [fresh.otherGroups other same] at located
      exact ends other stored located last known

theorem short_window_end {truth rows : List Row} {offset : Nat} {limit : Option Nat}
    (cut : rows = window truth offset limit) (short : limit.all (rows.length < ·) = true)
    (within : offset ≤ truth.length) : offset + rows.length = truth.length := by
  have reached := short_window_ends cut short
  have length := (cut ▸ window_prefix truth offset limit : rows <+: truth.drop offset).length_le
  rw [List.length_drop] at length
  omega

theorem ends_at_length_contents [JsonSized Row] (truth : Truth Row) :
    ContentInvariant (fun state op => Exact truth op ∧ ¬Overshoots truth state op)
      (EndsAtLength truth) where
  initial := by simp [EndsAtLength, CacheState.new]
  shrinks before after ends shrinks query group located last known := by
    obtain ⟨earlier, locatedBefore, stamp, knownBefore⟩ := shrinks.groups query group located
    rw [← stamp]
    exact ends query earlier locatedBefore last (knownBefore.trans known)
  filled state query snapshot offset executedLimit rows base group after admitted enabled prepared
      accepted filled ends := by
    obtain ⟨⟨_, cut⟩, within⟩ := admitted
    have before := ends.prepared prepared
    intro other stored located last known
    by_cases same : other = query
    · subst same
      obtain ⟨starts, _, finalGroup, _⟩ := filled.group
      obtain rfl := Option.some.inj (finalGroup.symm.trans located)
      change last = (truth other group.stamp).rows.length
      dsimp only [notedEnd] at known
      split_ifs at known with short
      · obtain rfl := Option.some.inj known
        have positive : executedLimit ≠ some 0 := by
          rintro rfl
          simp at short
        have inRows : offset.toNat ≤ (truth other snapshot).rows.length := by
          by_contra beyond
          exact within ⟨enabled, by rw [accepted], positive, by omega⟩
        have reached := short_window_end cut short inRows
        have fits := (truth other snapshot).fits
        rw [prepared.stamp]
        unfold saturatingAdd
        omega
      · exact before other group prepared.located last known
    · rw [filled.otherGroups other same] at located
      exact before other stored located last known
  counted state query snapshot total base group prepared ends := by
    have before := ends.prepared prepared
    intro other stored located last known
    rw [store_span_groups prepared.located, lookup_insert_eq] at located
    split_ifs at located with same
    · obtain rfl := Option.some.inj located
      subst same
      exact before other group prepared.located last known
    · exact before other stored located last known

/-- In every run of exact inserts none of which overshoots, a known end is the
length of the rows. -/
theorem run_known_end [JsonSized Row] (truth : Truth Row) (ops : List (Op Row))
    (exact_ : ∀ op ∈ ops, Exact truth op)
    (within : (machine Row).AdmittedRun (fun world op => ¬Overshoots truth world.cache op) ops)
    (query : QueryKey) (group : GroupIndex) (last : Nat)
    (located : ((machine Row).run ops).cache.groups.lookup query = some group)
    (known : group.knownEnd = some last) : last = (truth query group.stamp).rows.length := by
  have admitted := ((machine Row).admitted_run_of_forall exact_).and within
  exact (run_contents (ends_at_length_contents truth) ops admitted).2 query group located last known

def sampleTailOps : List (Op JsonRow) :=
  [.setBudgetMb 1, .insertRows sampleQuery ⟨0, none⟩ 2 (some 5) [⟨"3"⟩]]

theorem run_known_end_at_tail :
    (((machine JsonRow).run sampleTailOps).cache.groups.lookup sampleQuery).map
      (fun group => (group.knownEnd, group.stamp)) = some (some 3, ⟨0, none⟩) ∧
    3 = (sampleTruth sampleQuery ⟨0, none⟩).rows.length := by
  have exact_ : ∀ op ∈ sampleTailOps, Exact sampleTruth op := by
    simp [sampleTailOps, sampleTruth, Exact, window]
  have within : (machine JsonRow).AdmittedRun
      (fun world op => ¬Overshoots sampleTruth world.cache op) sampleTailOps :=
    ⟨id, fun overrun => absurd overrun.2.2.2 (by decide), trivial⟩
  have seen : (((machine JsonRow).run sampleTailOps).cache.groups.lookup sampleQuery).map
      (fun group => (group.knownEnd, group.stamp)) = some (some 3, ⟨0, none⟩) := by decide
  refine ⟨seen, ?_⟩
  obtain ⟨group, located, fields⟩ := Option.map_eq_some_iff.mp seen
  have stamp : group.stamp = ⟨0, none⟩ := congrArg Prod.snd fields
  rw [← stamp]
  exact run_known_end sampleTruth sampleTailOps exact_ within sampleQuery group 3 located
    (congrArg Prod.fst fields)

/-- A page beyond the three rows: the group records the page's own offset. -/
def sampleOvershoot : List (Op JsonRow) :=
  [.setBudgetMb 1, .insertRows sampleQuery ⟨0, none⟩ 7 (some 10) []]

theorem overshoot_known_end :
    ¬∀ ops : List (Op JsonRow), (∀ op ∈ ops, Exact sampleTruth op) →
      ∀ query group last, ((machine JsonRow).run ops).cache.groups.lookup query = some group →
        group.knownEnd = some last → last = (sampleTruth query group.stamp).rows.length := by
  intro claim
  have exact_ : ∀ op ∈ sampleOvershoot, Exact sampleTruth op := by
    simp [sampleOvershoot, sampleTruth, Exact, window]
  have seen : (((machine JsonRow).run sampleOvershoot).cache.groups.lookup sampleQuery).map
      GroupIndex.knownEnd = some (some 7) := by decide
  obtain ⟨group, located, known⟩ := Option.map_eq_some_iff.mp seen
  have length := claim sampleOvershoot exact_ sampleQuery group 7 located known
  simp [sampleTruth] at length

end Panoptikon.SearchCache
