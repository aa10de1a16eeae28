import Panoptikon.Jobs.Queue
import Panoptikon.VectorQuants.Builds
import Panoptikon.VectorQuants.Syncing

/-!
# The reconcile job

`jobs/vector_quants.rs`: a pass syncs the metadata, plans the data work from what
the sync left and does it, and the job repeats passes until one has nothing to do.
A failed removal or build is counted, not retried; a pass with failures fails in
the end. Each step of a build is a transaction of its own.
-/

namespace Panoptikon.VectorQuants

open Foundation Store
open Panoptikon.Jobs (ChangeSummary)

def maxConvergencePasses : Nat := 8

def deleteQuants (profileId : Int) (store : Store) : Store :=
  if (store.deleteQuantsChunk profileId deleteChunkRows).1 = 0 then
    (store.deleteQuantsChunk profileId deleteChunkRows).2
  else deleteQuants profileId (store.deleteQuantsChunk profileId deleteChunkRows).2
termination_by (codesOf store profileId).length
decreasing_by exact delete_chunk_shrinks ‹_›

def removeProfileQuants (profileId : Int) (store : Store) : Except ApiError Unit × Store :=
  let deleted := deleteQuants profileId store
  match deleted.dropProfile profileId with
  | .error failure => (.error failure, deleted)
  | .ok dropped => (.ok (), dropped)

section Building

variable (codec : Int8Codec)

/-- The chunks of one pair, from the cursor on. -/
def backfillPair (profileId setterId afterId : Int) (store : Store) : Except ApiError Unit × Store :=
  match _chunk : store.backfillChunk codec profileId setterId backfillChunkRows afterId with
  | .error failure => (.error failure, store)
  | .ok progress =>
      if progress.written = 0 then (.ok (), progress.store)
      else backfillPair profileId setterId progress.cursor progress.store
termination_by ahead store afterId
decreasing_by exact (backfill_chunk_fills _chunk).2.2 ‹_›

def backfillPairs (profileId : Int) : List Int → Store → Except ApiError Unit × Store
  | [], store => (.ok (), store)
  | setterId :: rest, store =>
      match backfillPair codec profileId setterId 0 store with
      | (.error failure, after) => (.error failure, after)
      | (.ok (), after) => backfillPairs profileId rest after

/-- The first transaction of a build, unless it is resumed. There is nothing to start
where the space has no vectors. -/
def startBuild (profileId : Int) (build : SpaceBuild) (store : Store) : Except ApiError (Option Store) :=
  if build.resume then .ok (some store)
  else if build.needsArtifact then do
    let artifact ← store.computeInt8ScaleArtifact codec build.setterIds build.dim
    if artifact.isNone then return none
    let started ← store.startSpaceBuild profileId build.setterIds artifact build.dim
    return some started.2
  else do
    let started ← store.startSpaceBuild profileId build.setterIds none build.dim
    return some started.2

def buildSpace (profileId : Int) (build : SpaceBuild) (store : Store) : Except ApiError Unit × Store :=
  match startBuild codec profileId build store with
  | .error failure => (.error failure, store)
  | .ok none => (.ok (), store)
  | .ok (some started) =>
      match backfillPairs codec profileId build.setterIds started with
      | (.error failure, filled) => (.error failure, filled)
      | (.ok (), filled) =>
          match filled.finishSpaceBuild profileId build.setterIds with
          | .error failure => (.error failure, filled)
          | .ok finished => (.ok (), finished)

end Building

structure PassOutcome where
  worked : Bool
  summary : ChangeSummary
deriving DecidableEq

structure PassProgress where
  failures : Nat
  summary : ChangeSummary
  store : Store

def runRemoval (progress : PassProgress) (profileId : Int) : PassProgress :=
  match removeProfileQuants profileId progress.store with
  | (.error _, after) => { progress with failures := progress.failures + 1, store := after }
  | (.ok (), after) => { progress with summary := { progress.summary with deletedData := true }, store := after }

def runBuild (codec : Int8Codec) (snapshot : StateSnapshot) (progress : PassProgress) (build : SpaceBuild) :
    PassProgress :=
  match snapshot.byName build.profileName with
  | none => progress
  | some row =>
      match buildSpace codec row.id build progress.store with
      | (.error _, after) => { progress with failures := progress.failures + 1, store := after }
      | (.ok (), after) => { progress with summary := { progress.summary with wroteData := true }, store := after }

def runPlan (codec : Int8Codec) (snapshot : StateSnapshot) (store : Store) : PassProgress :=
  let removed := snapshot.planData.removals.foldl runRemoval ⟨0, ChangeSummary.none, store⟩
  snapshot.planData.builds.foldl (runBuild codec snapshot) removed

def runReconcilePass (ids : RowIds) (codec : Int8Codec) (desired : DesiredState) (store : Store) :
    Except ApiError PassOutcome × Store :=
  match store.syncMetadata ids desired with
  | .error failure => (.error failure, store)
  | .ok (changed, synced) =>
      let snapshot := loadSnapshot synced desired
      if snapshot.planData.isEmpty then (.ok ⟨changed, ChangeSummary.none⟩, synced)
      else
        let done := runPlan codec snapshot synced
        if 0 < done.failures then
          (.error (.internal "Vector quant reconcile completed with failures; see logs"), done.store)
        else (.ok ⟨true, done.summary⟩, done.store)

/-- The loop of `run_reconcile`, with the passes that are left, for a configuration that
stays valid. -/
def reconcilePasses (ids : RowIds) (codec : Int8Codec) (desired : DesiredState) :
    Nat → ChangeSummary → Store → Except ApiError ChangeSummary × Store
  | 0, total, store => (.ok total, store)
  | passes + 1, total, store =>
      match runReconcilePass ids codec desired store with
      | (.error failure, after) => (.error failure, after)
      | (.ok outcome, after) =>
          if outcome.worked then reconcilePasses ids codec desired passes (total.orWith outcome.summary) after
          else (.ok (total.orWith outcome.summary), after)

def runReconcile (ids : RowIds) (codec : Int8Codec) (desired : DesiredState) (store : Store) :
    Except ApiError ChangeSummary × Store :=
  reconcilePasses ids codec desired maxConvergencePasses ChangeSummary.none store

variable {store : Store}

theorem delete_quants_done (profileId : Int) (store : Store) :
    OnlyCodes store (deleteQuants profileId store) ∧ (store.Sound → (deleteQuants profileId store).Sound) ∧
      (deleteQuants profileId store).profileHasQuants profileId = false := by
  induction store using deleteQuants.induct profileId with
  | case1 store done =>
    rw [deleteQuants, if_pos done]
    refine ⟨delete_chunk_only _ _, fun sound => sound.fewer_quants _, delete_chunk_done ?_ done⟩
    rw [deleteChunkRows]
    omega
  | case2 store more ih =>
    rw [deleteQuants, if_neg more]
    exact ⟨(delete_chunk_only _ _).trans ih.1, fun sound => ih.2.1 (sound.fewer_quants _), ih.2.2⟩

/-- The profile is gone, and nothing else but its pairs and codes. -/
structure Without (profileIds : List Int) (before after : Store) : Prop where
  sound : after.Sound
  setters : after.setters = before.setters
  vectors : after.vectors = before.vectors
  profiles : after.profiles = before.profiles.filter fun row => row.id ∉ profileIds
  pairs : ∀ profileId, profileId ∉ profileIds → ∀ setterId,
    after.pair profileId setterId = before.pair profileId setterId

theorem remove_profile_quants_done (sound : store.Sound) (profileId : Int) :
    ∃ after, removeProfileQuants profileId store = (.ok (), after) ∧ Without [profileId] store after := by
  obtain ⟨only, soundAfter, empty⟩ := delete_quants_done profileId store
  have deletedSound := soundAfter sound
  have absent : ¬(deleteQuants profileId store).profileHasQuants profileId = true := by
    rw [empty]
    exact Bool.false_ne_true
  have dropped : (deleteQuants profileId store).dropProfile profileId =
      .ok ((deleteQuants profileId store).deleteProfiles fun row => row.id = profileId) := by
    rw [dropProfile, if_neg absent]
  refine ⟨(deleteQuants profileId store).deleteProfiles fun row => row.id = profileId, ?_,
    deletedSound.delete_profiles _, only.setters, only.vectors, ?_, ?_⟩
  · unfold removeProfileQuants
    dsimp only
    rw [dropped]
  · change (deleteQuants profileId store).profiles.filter _ = _
    rw [only.profiles]
    apply List.filter_congr
    intro row _
    rw [Bool.eq_iff_iff, Bool.not_eq_true', decide_eq_false_iff_not, decide_eq_true_iff, List.mem_singleton]
  · intro otherProfile other setterId
    rw [pair_delete_profile deletedSound fun same => other (List.mem_singleton.mpr same), Store.pair, only.coverage,
      Store.pair]

theorem removals_done (profileIds : List Int) {progress : PassProgress} (sound : progress.store.Sound) :
    (profileIds.foldl runRemoval progress).failures = progress.failures ∧
      Without profileIds progress.store (profileIds.foldl runRemoval progress).store := by
  induction profileIds generalizing progress with
  | nil =>
    refine ⟨rfl, sound, rfl, rfl, ?_, fun _ _ _ => rfl⟩
    exact (List.filter_eq_self.mpr fun row _ => decide_eq_true List.not_mem_nil).symm
  | cons first rest ih =>
    obtain ⟨after, removed, without⟩ := remove_profile_quants_done sound first
    let next : PassProgress :=
      { progress with summary := { progress.summary with deletedData := true }, store := after }
    have step : runRemoval progress first = next := by
      rw [runRemoval, removed]
    rw [List.foldl_cons, step]
    have nextSound : next.store.Sound := without.sound
    obtain ⟨failures, others⟩ := ih nextSound
    refine ⟨failures, others.sound, others.setters.trans without.setters, others.vectors.trans without.vectors, ?_, ?_⟩
    · have left : next.store.profiles = progress.store.profiles.filter fun row => row.id ∉ [first] :=
        without.profiles
      rw [others.profiles, left, List.filter_filter]
      apply List.filter_congr
      intro row _
      rw [Bool.eq_iff_iff, Bool.and_eq_true, decide_eq_true_iff, decide_eq_true_iff, decide_eq_true_iff,
        List.mem_singleton, List.mem_cons, not_or]
      exact and_comm
    · intro profileId absent setterId
      rw [List.mem_cons, not_or] at absent
      rw [others.pairs profileId absent.2 setterId]
      exact without.pairs profileId (fun same => absent.1 (List.mem_singleton.mp same)) setterId

section Built

variable {codec : Int8Codec} {profileId : Int} {build : SpaceBuild}

theorem backfill_pair_only (codec : Int8Codec) (profileId setterId afterId : Int) (store : Store) :
    OnlyCodes store (backfillPair codec profileId setterId afterId store).2 ∧
      (store.Sound → (backfillPair codec profileId setterId afterId store).2.Sound) := by
  induction afterId, store using backfillPair.induct codec profileId setterId with
  | case1 afterId store failure failed =>
    rw [backfillPair]
    split
    · exact ⟨OnlyCodes.refl _, id⟩
    · rename_i progress chunk
      rw [failed] at chunk
      cases chunk
  | case2 afterId store progress chunk done =>
    rw [backfillPair]
    split
    · exact ⟨OnlyCodes.refl _, id⟩
    · rename_i other isOther
      rw [chunk, Except.ok.injEq] at isOther
      rw [← isOther, if_pos done]
      exact ⟨(backfill_chunk_fills chunk).1, (backfill_chunk_fills chunk).2.1⟩
  | case3 afterId store progress chunk more ih =>
    rw [backfillPair]
    split
    · exact ⟨OnlyCodes.refl _, id⟩
    · rename_i other isOther
      rw [chunk, Except.ok.injEq] at isOther
      rw [← isOther, if_neg more]
      obtain ⟨only, sound, _⟩ := backfill_chunk_fills chunk
      exact ⟨only.trans ih.1, fun before => ih.2 (sound before)⟩

theorem backfill_pairs_only (codec : Int8Codec) (profileId : Int) (setterIds : List Int) (store : Store) :
    OnlyCodes store (backfillPairs codec profileId setterIds store).2 ∧
      (store.Sound → (backfillPairs codec profileId setterIds store).2.Sound) := by
  induction setterIds generalizing store with
  | nil => exact ⟨OnlyCodes.refl store, id⟩
  | cons first rest ih =>
    have one := backfill_pair_only codec profileId first 0 store
    unfold backfillPairs
    split
    · rename_i failure after filled
      rw [filled] at one
      exact one
    · rename_i after filled
      rw [filled] at one
      exact ⟨one.1.trans (ih after).1, fun before => (ih after).2 (one.2 before)⟩

/-- What the plan knows of a build: its space has vectors, and one that is resumed has
its artifact. -/
structure Startable (store : Store) (profileId : Int) (build : SpaceBuild) : Prop where
  needs : build.needsArtifact = true
  vectors : ∃ setterId ∈ build.setterIds, store.vectorsOf setterId ≠ []
  frozen : build.resume = true →
    ∃ artifact, ∀ setterId ∈ build.setterIds, HasPair store profileId setterId .building (some artifact)

theorem compute_artifact_some {setterIds : List Int} {dim : Int} {artifact : Option Blob}
    (computed : store.computeInt8ScaleArtifact codec setterIds dim = .ok artifact)
    (vectors : ∃ setterId ∈ setterIds, store.vectorsOf setterId ≠ []) : artifact ≠ none := by
  obtain ⟨setterId, member, some⟩ := vectors
  obtain ⟨vector, isVector⟩ := List.exists_mem_of_ne_nil _ some
  have held : vector.embedding ∈ (setterIds.flatMap store.vectorsOf).map VectorRow.embedding :=
    List.mem_map_of_mem (List.mem_flatMap.mpr ⟨setterId, member, isVector⟩)
  rw [computeInt8ScaleArtifact] at computed
  split at computed
  · cases computed
  split at computed
  · cases computed
  split at computed
  · rename_i empty
    rw [List.isEmpty_iff.mp empty] at held
    cases held
  · cases computed
    exact Option.some_ne_none _

theorem start_build_within {started : Store} (starts : startBuild codec profileId build store = .ok (some started)) :
    Within (InSpace profileId build.setterIds) store started := by
  rw [startBuild] at starts
  split at starts
  · cases starts
    exact Within.refl _
  split at starts
  · obtain ⟨artifact, _, rest⟩ := bind_ok starts
    split at rest
    · cases rest
    obtain ⟨after, start, same⟩ := bind_ok rest
    cases same
    exact (start_space_build_freezes start).1
  · obtain ⟨after, start, same⟩ := bind_ok starts
    cases same
    exact (start_space_build_freezes start).1

theorem start_build_freezes (startable : Startable store profileId build) {outcome : Option Store}
    (starts : startBuild codec profileId build store = .ok outcome) : ∃ started artifact, outcome = some started ∧
      ∀ setterId ∈ build.setterIds, HasPair started profileId setterId .building (some artifact) := by
  rw [startBuild] at starts
  by_cases resumed : build.resume = true
  · rw [if_pos resumed] at starts
    cases starts
    obtain ⟨artifact, frozen⟩ := startable.frozen resumed
    exact ⟨store, artifact, rfl, frozen⟩
  · rw [if_neg resumed, if_pos startable.needs] at starts
    obtain ⟨artifact, computed, rest⟩ := bind_ok starts
    cases artifact with
    | none => exact absurd rfl (compute_artifact_some computed startable.vectors)
    | some artifact =>
      obtain ⟨after, start, same⟩ := bind_ok rest
      cases same
      exact ⟨after.2, artifact, rfl, (start_space_build_freezes start).2⟩

theorem build_space_within (codec : Int8Codec) (profileId : Int) (build : SpaceBuild) (store : Store) :
    Within (InSpace profileId build.setterIds) store (buildSpace codec profileId build store).2 := by
  unfold buildSpace
  cases starts : startBuild codec profileId build store with
  | error failure => exact Within.refl store
  | ok outcome =>
    cases outcome with
    | none => exact Within.refl store
    | some started =>
      obtain ⟨only, sound⟩ := backfill_pairs_only codec profileId build.setterIds started
      have filling := (start_build_within starts).trans (only.within sound)
      dsimp only
      cases fills : backfillPairs codec profileId build.setterIds started with
      | mk result filled =>
        rw [fills] at filling
        cases result with
        | error failure => exact filling
        | ok done =>
          dsimp only
          cases finishes : filled.finishSpaceBuild profileId build.setterIds with
          | error failure => exact filling
          | ok finished => exact filling.trans (finish_within finishes)

theorem build_space_readies (startable : Startable store profileId build) {after : Store}
    (built : buildSpace codec profileId build store = (.ok (), after)) :
    ∃ artifact, ∀ setterId ∈ build.setterIds, HasPair after profileId setterId .ready (some artifact) := by
  unfold buildSpace at built
  cases starts : startBuild codec profileId build store with
  | error failure =>
    rw [starts] at built
    cases built
  | ok outcome =>
    obtain ⟨started, artifact, rfl, frozen⟩ := start_build_freezes startable starts
    rw [starts] at built
    dsimp only at built
    have only := (backfill_pairs_only codec profileId build.setterIds started).1
    cases fills : backfillPairs codec profileId build.setterIds started with
    | mk result filled =>
      rw [fills] at built only
      cases result with
      | error failure => cases built
      | ok done =>
        dsimp only at built
        cases finishes : filled.finishSpaceBuild profileId build.setterIds with
        | error failure =>
          rw [finishes] at built
          cases built
        | ok finished =>
          rw [finishes] at built
          cases built
          refine ⟨artifact, finish_space_build_readies finishes ?_⟩
          intro setterId member
          obtain ⟨pair, isPair, rest⟩ := frozen setterId member
          refine ⟨.building, pair, ?_, rest⟩
          rw [Store.pair, only.coverage]
          exact isPair

theorem Startable.of_same {after : Store} (startable : Startable store profileId build)
    (vectors : after.vectors = store.vectors)
    (pairs : ∀ setterId ∈ build.setterIds, after.pair profileId setterId = store.pair profileId setterId) :
    Startable after profileId build where
  needs := startable.needs
  vectors := by
    obtain ⟨setterId, member, inhabited⟩ := startable.vectors
    refine ⟨setterId, member, ?_⟩
    rw [vectorsOf, vectors]
    exact inhabited
  frozen := by
    intro resumed
    obtain ⟨artifact, frozen⟩ := startable.frozen resumed
    refine ⟨artifact, ?_⟩
    intro setterId member
    obtain ⟨pair, isPair, rest⟩ := frozen setterId member
    exact ⟨pair, (pairs setterId member).trans isPair, rest⟩

end Built

end Panoptikon.VectorQuants
