import Panoptikon.VectorQuants.Reconcile
import Panoptikon.VectorQuants.Spaces

/-!
# Convergence

A pass that succeeds leaves nothing to do: the sync settles the metadata, the
removals drop the profiles that nobody wants, and each build makes its space ready
without touching the pairs of another. The pass after it reports no work.
-/

namespace Panoptikon.VectorQuants

open Foundation Foundation.KeyedSort Store StateSnapshot
open Panoptikon.Jobs (ChangeSummary)

section Builds

variable {codec : Int8Codec} {snapshot : StateSnapshot}

/-- The pairs that a build is about. -/
def Touches (snapshot : StateSnapshot) (build : SpaceBuild) (profileId setterId : Int) : Prop :=
  ∃ row, snapshot.byName build.profileName = some row ∧ InSpace row.id build.setterIds profileId setterId

theorem failures_grow (codec : Int8Codec) (snapshot : StateSnapshot) (builds : List SpaceBuild)
    (progress : PassProgress) :
    progress.failures ≤ (builds.foldl (runBuild codec snapshot) progress).failures := by
  induction builds generalizing progress with
  | nil => exact le_rfl
  | cons first rest ih =>
    rw [List.foldl_cons]
    apply le_trans _ (ih _)
    unfold runBuild
    split
    · exact le_rfl
    · split
      · exact Nat.le_succ _
      · exact le_rfl

theorem run_build_done {progress : PassProgress} {build : SpaceBuild} {row : ProfileRow}
    (isRow : snapshot.byName build.profileName = some row) (startable : Startable progress.store row.id build)
    (succeeded : (runBuild codec snapshot progress build).failures = progress.failures) :
    Within (Touches snapshot build) progress.store (runBuild codec snapshot progress build).store ∧
      SpaceReady (runBuild codec snapshot progress build).store row.id build.setterIds := by
  unfold runBuild at succeeded ⊢
  rw [isRow] at succeeded ⊢
  dsimp only at succeeded ⊢
  have within := build_space_within codec row.id build progress.store
  cases built : buildSpace codec row.id build progress.store with
  | mk result after =>
    rw [built] at succeeded within
    cases result with
    | error failure => exact absurd succeeded (Nat.succ_ne_self _)
    | ok done =>
      exact ⟨within.mono fun _ _ inside => ⟨row, isRow, inside⟩, build_space_readies startable built⟩

theorem SpaceReady.kept {store after : Store} {Touched : Int → Int → Prop} {profileId : Int} {setterIds : List Int}
    (ready : SpaceReady store profileId setterIds) (within : Within Touched store after)
    (untouched : ∀ setterId ∈ setterIds, ¬Touched profileId setterId) : SpaceReady after profileId setterIds := by
  obtain ⟨artifact, each⟩ := ready
  refine ⟨artifact, ?_⟩
  intro setterId member
  obtain ⟨pair, isPair, rest⟩ := each setterId member
  exact ⟨pair, (within.pairs _ _ (untouched setterId member)).trans isPair, rest⟩

theorem builds_done {builds : List SpaceBuild} {progress : PassProgress}
    (apart : builds.Pairwise fun build other => ∀ profileId setterId,
      Touches snapshot build profileId setterId → ¬Touches snapshot other profileId setterId)
    (startable : ∀ build ∈ builds, ∃ row, snapshot.byName build.profileName = some row ∧
      Startable progress.store row.id build)
    (succeeded : (builds.foldl (runBuild codec snapshot) progress).failures = progress.failures) :
    Within (fun profileId setterId => ∃ build ∈ builds, Touches snapshot build profileId setterId) progress.store
        (builds.foldl (runBuild codec snapshot) progress).store ∧
      ∀ build ∈ builds, ∃ row, snapshot.byName build.profileName = some row ∧
        SpaceReady (builds.foldl (runBuild codec snapshot) progress).store row.id build.setterIds := by
  induction builds generalizing progress with
  | nil => exact ⟨Within.refl _, nofun⟩
  | cons first rest ih =>
    rw [List.pairwise_cons] at apart
    rw [List.foldl_cons] at succeeded ⊢
    obtain ⟨row, isRow, isStartable⟩ := startable first List.mem_cons_self
    have grown : progress.failures ≤ (runBuild codec snapshot progress first).failures :=
      failures_grow codec snapshot [first] progress
    have more := failures_grow codec snapshot rest (runBuild codec snapshot progress first)
    have isDone : (runBuild codec snapshot progress first).failures = progress.failures := by omega
    obtain ⟨within, ready⟩ := run_build_done isRow isStartable isDone
    have startableRest : ∀ build ∈ rest, ∃ row, snapshot.byName build.profileName = some row ∧
        Startable (runBuild codec snapshot progress first).store row.id build := by
      intro build member
      obtain ⟨other, isOther, isStartable⟩ := startable build (List.mem_cons_of_mem _ member)
      refine ⟨other, isOther, isStartable.of_same within.vectors ?_⟩
      intro setterId isSetter
      apply within.pairs
      intro touched
      exact apart.1 build member _ _ touched ⟨other, isOther, rfl, isSetter⟩
    obtain ⟨withinRest, readies⟩ := ih apart.2 startableRest (by omega)
    refine ⟨(within.mono ?_).trans (withinRest.mono ?_), ?_⟩
    · intro profileId setterId touched
      exact ⟨first, List.mem_cons_self, touched⟩
    · intro profileId setterId ⟨build, member, touched⟩
      exact ⟨build, List.mem_cons_of_mem _ member, touched⟩
    · intro build member
      rcases List.mem_cons.mp member with rfl | later
      · refine ⟨row, isRow, ready.kept withinRest ?_⟩
        intro setterId isSetter ⟨other, isOther, touched⟩
        exact apart.1 other isOther _ _ ⟨row, isRow, rfl, isSetter⟩ touched
      · exact readies build later

end Builds

section Planned

variable {store : Store} {desired : DesiredState}

theorem no_data_iff : (loadSnapshot store desired).planData.isEmpty = true ↔
    (∀ row ∈ store.profiles, (loadSnapshot store desired).removal row = false) ∧
      ∀ profile ∈ desired.profiles, ∀ space ∈ groupSpaces store.loadEmbeddingSetters,
        (loadSnapshot store desired).spaceBuild profile space = none := by
  rw [DataPlan.isEmpty, Bool.and_eq_true, List.isEmpty_iff, List.isEmpty_iff, planData, List.map_eq_nil_iff,
    List.filter_eq_nil_iff, List.flatMap_eq_nil_iff]
  apply and_congr
  · apply forall_congr'
    intro row
    rw [mem_profiles, Bool.not_eq_true]
  · apply forall_congr'
    intro profile
    apply imp_congr_right
    intro _
    rw [List.filterMap_eq_nil_iff]
    rfl

theorem InSync.active (agrees : InSync store desired) (sound : store.Sound) {row : ProfileRow}
    (member : row ∈ store.profiles) (wanted : row.name ∈ desired.names) : row.state = .active := by
  obtain ⟨profile, isProfile, same⟩ := List.mem_map.mp wanted
  obtain ⟨other, established⟩ := agrees.established profile isProfile
  have isOther := established.named
  rw [same, sound.named_iff.mpr ⟨member, rfl⟩, Option.some.injEq] at isOther
  rw [isOther]
  exact established.recipe.active

theorem removal_iff (agrees : InSync store desired) (sound : store.Sound) {row : ProfileRow}
    (member : row ∈ store.profiles) :
    (loadSnapshot store desired).removal row = true ↔ row.name ∉ desired.names := by
  rw [removal, has_quants_eq member, Bool.and_eq_true, Bool.or_eq_true, decide_eq_true_iff, Bool.not_eq_true']
  constructor
  · intro ⟨leaves, _⟩ wanted
    rcases leaves with unwanted | removing
    · rw [desires_iff.mpr wanted] at unwanted
      cases unwanted
    · rw [agrees.active sound member wanted] at removing
      cases removing
  · intro unwanted
    refine ⟨Or.inl ?_, (agrees.retiring row member unwanted).quants⟩
    rw [← Bool.not_eq_true, desires_iff]
    exact unwanted

theorem mem_builds {build : SpaceBuild} : build ∈ (loadSnapshot store desired).planData.builds ↔
    ∃ profile ∈ desired.profiles, ∃ space ∈ groupSpaces store.loadEmbeddingSetters,
      (loadSnapshot store desired).spaceBuild profile space = some build := by
  rw [planData, List.mem_flatMap]
  apply exists_congr
  intro profile
  apply and_congr_right
  intro _
  rw [List.mem_filterMap]
  rfl

theorem builds_apart (sound : store.Sound) (valid : desired.Valid) :
    (loadSnapshot store desired).planData.builds.Pairwise fun build other => ∀ profileId setterId,
      Touches (loadSnapshot store desired) build profileId setterId →
        ¬Touches (loadSnapshot store desired) other profileId setterId := by
  rw [planData, List.pairwise_flatMap]
  constructor
  · intro profile _
    rw [List.pairwise_filterMap]
    apply (group_spaces_apart (embedding_ids_nodup sound) (embedding_names_nodup sound)).imp
    intro first second apart build isBuild other isOther profileId setterId touched touchedToo
    obtain ⟨_, _, _, _, rfl⟩ := space_build_some.mp isBuild
    obtain ⟨_, _, _, _, rfl⟩ := space_build_some.mp isOther
    obtain ⟨_, _, _, inFirst⟩ := touched
    obtain ⟨_, _, _, inSecond⟩ := touchedToo
    obtain ⟨setter, isSetter, sameSetter⟩ := List.mem_map.mp inFirst
    obtain ⟨another, isAnother, sameAnother⟩ := List.mem_map.mp inSecond
    exact apart setter isSetter another isAnother (sameSetter.trans sameAnother.symm)
  · have names : desired.profiles.Pairwise fun first second => first.name ≠ second.name :=
      List.pairwise_map.mp valid.distinct
    apply names.imp
    intro first second differ build isBuild other isOther profileId setterId touched touchedToo
    obtain ⟨space, _, made⟩ := List.mem_filterMap.mp isBuild
    obtain ⟨another, _, madeToo⟩ := List.mem_filterMap.mp isOther
    obtain ⟨_, _, _, _, rfl⟩ := space_build_some.mp made
    obtain ⟨_, _, _, _, rfl⟩ := space_build_some.mp madeToo
    obtain ⟨row, isRow, sameId, _⟩ := touched
    obtain ⟨otherRow, isOtherRow, sameOther, _⟩ := touchedToo
    rw [by_name_eq sound] at isRow isOtherRow
    obtain ⟨member, isFirst⟩ := sound.named_iff.mp isRow
    obtain ⟨otherMember, isSecond⟩ := sound.named_iff.mp isOtherRow
    have same := sound.id_injective member otherMember (sameId.symm.trans sameOther)
    rw [same] at isFirst
    exact differ (isFirst.symm.trans isSecond)

theorem builds_startable (agrees : InSync store desired) (sound : store.Sound) {build : SpaceBuild}
    (member : build ∈ (loadSnapshot store desired).planData.builds) :
    ∃ row, (loadSnapshot store desired).byName build.profileName = some row ∧ row.name ∈ desired.names ∧
      Startable store row.id build := by
  obtain ⟨profile, isProfile, space, isSpace, made⟩ := mem_builds.mp member
  obtain ⟨row, established⟩ := agrees.established profile isProfile
  obtain ⟨dim, oneDim, _, passes, rfl⟩ := space_build_some.mp made
  have isName : row.name = profile.name := (mem_of_row_with established.named).2
  refine ⟨row, ?_, ?_, rfl, ?_, ?_⟩
  · rw [by_name_eq sound]
    exact established.named
  · rw [isName]
    exact List.mem_map_of_mem isProfile
  · rw [gate_iff (mem_group_spaces isSpace)] at passes
    have positive : 0 < store.vectorCount space := by
      rw [artifactMinVectors] at passes
      omega
    obtain ⟨count, held, inhabited⟩ := List.sum_pos_iff_exists_pos_nat.mp positive
    obtain ⟨setter, isSetter, rfl⟩ := List.mem_map.mp held
    exact ⟨setter.id, List.mem_map_of_mem isSetter, List.ne_nil_of_length_pos inhabited⟩
  · intro resumed
    have inhabited : space ≠ [] := by
      intro empty
      have head := oneDim.head
      rw [empty] at head
      cases head
    exact resumable_frozen sound established.named established.recipe inhabited resumed

end Planned

/-- There is nothing to do. -/
structure Quiet (store : Store) (desired : DesiredState) : Prop where
  sound : store.Sound
  agrees : InSync store desired
  noData : (loadSnapshot store desired).planData.isEmpty = true

/-- What the removals and the builds of a plan leave. -/
structure Settled (desired : DesiredState) (before after : Store) : Prop where
  sound : after.Sound
  setters : after.setters = before.setters
  vectors : after.vectors = before.vectors
  profiles : ∀ row, row ∈ after.profiles ↔ row ∈ before.profiles ∧ row.name ∈ desired.names
  untouched : ∀ row ∈ before.profiles, row.name ∈ desired.names → ∀ setterId,
    (∀ build ∈ (loadSnapshot before desired).planData.builds,
      ¬Touches (loadSnapshot before desired) build row.id setterId) →
    after.pair row.id setterId = before.pair row.id setterId
  built : ∀ build ∈ (loadSnapshot before desired).planData.builds, ∃ row,
    (loadSnapshot before desired).byName build.profileName = some row ∧ SpaceReady after row.id build.setterIds

section Final

variable {codec : Int8Codec} {store : Store} {desired : DesiredState}

theorem run_plan_settles (agrees : InSync store desired) (sound : store.Sound) (valid : desired.Valid)
    (succeeded : (runPlan codec (loadSnapshot store desired) store).failures = 0) :
    Settled desired store (runPlan codec (loadSnapshot store desired) store).store := by
  let start : PassProgress := ⟨0, ChangeSummary.none, store⟩
  let removals := (loadSnapshot store desired).planData.removals
  have startSound : start.store.Sound := sound
  obtain ⟨failures, without⟩ := removals_done removals startSound
  have stays : ∀ row ∈ store.profiles, (row.id ∉ removals ↔ row.name ∈ desired.names) := by
    intro row member
    rw [← not_iff_not, not_not, ← removal_iff agrees sound member]
    constructor
    · intro removed
      obtain ⟨other, isOther, same⟩ := List.mem_map.mp removed
      have found := List.mem_filter.mp isOther
      rw [← sound.id_injective (mem_profiles.mp found.1) member same]
      exact found.2
    · intro removed
      exact List.mem_map_of_mem (List.mem_filter.mpr ⟨mem_profiles.mpr member, removed⟩)
  have startable : ∀ build ∈ (loadSnapshot store desired).planData.builds, ∃ row,
      (loadSnapshot store desired).byName build.profileName = some row ∧
        Startable (removals.foldl runRemoval start).store row.id build := by
    intro build member
    obtain ⟨row, isRow, wanted, isStartable⟩ := builds_startable agrees sound member
    refine ⟨row, isRow, isStartable.of_same without.vectors ?_⟩
    intro setterId _
    apply without.pairs
    rw [by_name_eq sound] at isRow
    exact (stays row (sound.named_iff.mp isRow).1).mpr wanted
  obtain ⟨within, built⟩ := builds_done (builds_apart sound valid) startable (succeeded.trans failures.symm)
  have profiles : (runPlan codec (loadSnapshot store desired) store).store.profiles =
      store.profiles.filter fun row => row.id ∉ removals := within.profiles.trans without.profiles
  refine ⟨within.sound without.sound, within.setters.trans without.setters, within.vectors.trans without.vectors,
    ?_, ?_, built⟩
  · intro row
    rw [profiles, List.mem_filter, decide_eq_true_iff]
    exact and_congr_right fun member => stays row member
  · intro row member wanted setterId untouched
    refine (within.pairs _ _ ?_).trans (without.pairs _ ((stays row member).mpr wanted) setterId)
    intro ⟨build, isBuild, touched⟩
    exact untouched build isBuild touched

variable {after : Store}

theorem SpaceReady.covers {profileId : Int} {setterIds : List Int} (ready : SpaceReady after profileId setterIds)
    {setterId : Int} (member : setterId ∈ setterIds) : (after.pair profileId setterId).isSome = true := by
  obtain ⟨artifact, each⟩ := ready
  obtain ⟨pair, isPair, _⟩ := each setterId member
  rw [isPair]
  rfl

section

variable (settled : Settled desired store after)

include settled

theorem Settled.established (agrees : InSync store desired)
    (sound : store.Sound) {profile : DesiredProfile} (isProfile : profile ∈ desired.profiles) :
    ∃ row ∈ store.profiles, store.named profile.name = some row ∧ Matches row profile ∧
      Established after after.embeddingIds profile row := by
  obtain ⟨row, named, recipe, covers⟩ := agrees.established profile isProfile
  obtain ⟨member, isName⟩ := sound.named_iff.mp named
  have wanted : row.name ∈ desired.names := by
    rw [isName]
    exact List.mem_map_of_mem isProfile
  refine ⟨row, member, named, recipe, ?_, recipe, ?_⟩
  · exact settled.sound.named_iff.mpr ⟨(settled.profiles row).mpr ⟨member, wanted⟩, isName⟩
  · intro setterId isSetter
    rw [embeddingIds, embedding_setters_eq settled.setters settled.vectors] at isSetter
    by_cases touched : ∃ build ∈ (loadSnapshot store desired).planData.builds,
        Touches (loadSnapshot store desired) build row.id setterId
    · obtain ⟨build, isBuild, other, isOther, sameId, isTouched⟩ := touched
      obtain ⟨same, isSame, ready⟩ := settled.built build isBuild
      rw [isOther, Option.some.injEq] at isSame
      rw [sameId, isSame]
      exact ready.covers isTouched
    · rw [settled.untouched row member wanted setterId fun build isBuild isTouched =>
        touched ⟨build, isBuild, isTouched⟩]
      exact covers setterId isSetter

theorem Settled.space_kept (sound : store.Sound) (valid : desired.Valid)
    {profile : DesiredProfile} (isProfile : profile ∈ desired.profiles) {row : ProfileRow}
    (named : store.named profile.name = some row) {space : List EmbeddingSetter}
    (isSpace : space ∈ groupSpaces store.loadEmbeddingSetters)
    (unplanned : (loadSnapshot store desired).spaceBuild profile space = none)
    (ready : SpaceReady store row.id (space.map EmbeddingSetter.id)) :
    SpaceReady after row.id (space.map EmbeddingSetter.id) := by
  obtain ⟨member, isName⟩ := sound.named_iff.mp named
  have wanted : row.name ∈ desired.names := by
    rw [isName]
    exact List.mem_map_of_mem isProfile
  obtain ⟨artifact, each⟩ := ready
  refine ⟨artifact, ?_⟩
  intro setterId isSetter
  obtain ⟨pair, isPair, rest⟩ := each setterId isSetter
  refine ⟨pair, ?_, rest⟩
  rw [settled.untouched row member wanted setterId]
  · exact isPair
  · intro build isBuild ⟨other, isOther, sameId, isTouched⟩
    obtain ⟨otherProfile, isOtherProfile, otherSpace, isOtherSpace, made⟩ := mem_builds.mp isBuild
    obtain ⟨_, _, _, _, rfl⟩ := space_build_some.mp made
    rw [by_name_eq sound] at isOther
    obtain ⟨otherMember, isOtherName⟩ := sound.named_iff.mp isOther
    have sameRow := sound.id_injective member otherMember sameId
    rw [← sameRow, isName] at isOtherName
    have sameProfile := List.inj_on_of_nodup_map valid.distinct isProfile isOtherProfile isOtherName
    obtain ⟨setter, inSpace, isId⟩ := List.mem_map.mp isSetter
    obtain ⟨another, inOther, isSame⟩ := List.mem_map.mp isTouched
    by_cases sameSpace : space = otherSpace
    · rw [← sameProfile, ← sameSpace, unplanned] at made
      cases made
    · have apart := group_spaces_apart (embedding_ids_nodup sound) (embedding_names_nodup sound)
      exact apart.forall isSpace isOtherSpace sameSpace setter inSpace another inOther (isId.trans isSame.symm)

theorem Settled.quiet (agrees : InSync store desired) (sound : store.Sound)
    (valid : desired.Valid) : Quiet after desired := by
  have afterAgrees : InSync after desired := by
    refine ⟨?_, ?_, ?_⟩
    · intro profile isProfile
      obtain ⟨row, _, _, _, established⟩ := settled.established agrees sound isProfile
      exact ⟨row, established⟩
    · intro row member unwanted
      exact absurd ((settled.profiles row).mp member).2 unwanted
    · intro row member
      exact agrees.flags row ((settled.profiles row).mp member).1
  refine ⟨settled.sound, afterAgrees, no_data_iff.mpr ⟨?_, ?_⟩⟩
  · intro row member
    rw [← Bool.not_eq_true, removal_iff afterAgrees settled.sound member, not_not]
    exact ((settled.profiles row).mp member).2
  · intro profile isProfile space isSpace
    obtain ⟨row, member, named, recipe, established⟩ := settled.established agrees sound isProfile
    rw [embedding_setters_eq settled.setters settled.vectors] at isSpace
    cases built : (loadSnapshot after desired).spaceBuild profile space with
    | none => rfl
    | some again =>
      obtain ⟨dim, oneDim, unsettled, passes, _⟩ := space_build_some.mp built
      have ready : SpaceReady after row.id (space.map EmbeddingSetter.id) := by
        cases planned : (loadSnapshot store desired).spaceBuild profile space with
        | some build =>
          obtain ⟨other, isOther, ready⟩ := settled.built build (mem_builds.mpr
            ⟨profile, isProfile, space, isSpace, planned⟩)
          obtain ⟨_, _, _, _, rfl⟩ := space_build_some.mp planned
          rw [by_name_eq sound, named, Option.some.injEq] at isOther
          rw [isOther]
          exact ready
        | none =>
          apply settled.space_kept sound valid isProfile named isSpace planned
          rw [← settled_iff sound named recipe]
          by_contra unready
          have passed : (loadSnapshot store desired).gate profile space = true := by
            rw [gate_iff (mem_group_spaces isSpace)]
            have inAfter := mem_group_spaces isSpace
            rw [← embedding_setters_eq settled.setters settled.vectors] at inAfter
            rw [gate_iff inAfter, vectorCount] at passes
            have same : after.vectorsOf = store.vectorsOf := by
              funext setterId
              rw [vectorsOf, settled.vectors, vectorsOf]
            rw [same] at passes
            exact passes
          have made := space_build_some.mpr
            ⟨dim, oneDim, Bool.eq_false_of_not_eq_true unready, passed, rfl⟩
          rw [planned] at made
          cases made
      rw [(settled_iff settled.sound established.named recipe space).mpr ready] at unsettled
      cases unsettled

end

end Final

section Passes

variable {ids : RowIds} {codec : Int8Codec} {store : Store} {desired : DesiredState}

theorem pass_quiet (sound : store.Sound) (valid : desired.Valid) {outcome : PassOutcome} {after : Store}
    (passed : runReconcilePass ids codec desired store = (.ok outcome, after)) : Quiet after desired := by
  obtain ⟨changed, synced, syncs, syncedSound, agrees, _⟩ := sync_metadata_agrees ids sound valid
  unfold runReconcilePass at passed
  rw [syncs] at passed
  dsimp only at passed
  split at passed
  · rename_i noData
    cases passed
    exact ⟨syncedSound, agrees, noData⟩
  · split at passed
    · cases passed
    · rename_i succeeded
      cases passed
      exact (run_plan_settles agrees syncedSound valid (Nat.eq_zero_of_not_pos succeeded)).quiet agrees syncedSound
        valid

theorem pass_idle {outcome : PassOutcome} {after : Store}
    (passed : runReconcilePass ids codec desired store = (.ok outcome, after)) (idle : outcome.worked = false) :
    after = store := by
  unfold runReconcilePass at passed
  split at passed
  · cases passed
  rename_i changed synced syncs
  dsimp only at passed
  split at passed
  · cases passed
    dsimp only at idle
    rw [idle] at syncs
    exact sync_unchanged syncs
  · split at passed
    · cases passed
    · cases passed
      cases idle

theorem quiet_pass (quiet : Quiet store desired) (valid : desired.Valid) :
    runReconcilePass ids codec desired store = (.ok ⟨false, ChangeSummary.none⟩, store) := by
  obtain ⟨changed, synced, syncs, _, _, _, _, unchanged⟩ := sync_metadata_agrees ids quiet.sound valid
  obtain ⟨rfl, rfl⟩ := unchanged quiet.agrees
  unfold runReconcilePass
  rw [syncs]
  dsimp only
  rw [if_pos quiet.noData]

variable (ids codec desired) in
/-- So many passes that report work lead from one store to another. -/
inductive Passes : Nat → Store → Store → Prop where
  | none (store : Store) : Passes 0 store store
  | more {count : Nat} {before next after : Store} {outcome : PassOutcome}
      (passed : runReconcilePass ids codec desired before = (.ok outcome, next)) (worked : outcome.worked = true)
      (later : Passes count next after) : Passes (count + 1) before after

/-- What a database looks like once the job is done. -/
structure Converged (store : Store) (desired : DesiredState) : Prop where
  analyzed : analyze store desired = .none
  names : (store.profiles.map ProfileRow.name).Perm desired.names
  recipes : ∀ row ∈ store.profiles, ∃ profile ∈ desired.profiles, profile.name = row.name ∧ Matches row profile
  flagged : ∀ row ∈ store.profiles, row.isDefault = true ↔ desired.defaultName = some row.name
  codes : ∀ quant ∈ store.quants, ∃ row ∈ store.profiles, row.id = quant.profileId ∧ row.name ∈ desired.names
  spaces : ∀ profile ∈ desired.profiles, ∀ space ∈ groupSpaces store.loadEmbeddingSetters, ∀ dim,
    OneDim space dim → artifactMinVectors ≤ store.vectorCount space →
    ∃ row, store.named profile.name = some row ∧ SpaceReady store row.id (space.map EmbeddingSetter.id)

theorem Quiet.converged (quiet : Quiet store desired) (valid : desired.Valid) : Converged store desired := by
  obtain ⟨sound, agrees, noData⟩ := quiet
  have planned := no_data_iff.mp noData
  have wanted : ∀ row ∈ store.profiles, row.name ∈ desired.names := by
    intro row member
    by_contra unwanted
    have removed := planned.1 row member
    rw [(removal_iff agrees sound member).mpr unwanted] at removed
    cases removed
  refine ⟨?_, ?_, ?_, ?_, ?_, ?_⟩
  · rw [analyze, noData, (plan_metadata_nil sound valid).mpr agrees]
    rfl
  · apply (List.perm_ext_iff_of_nodup sound.profileNames valid.distinct).mpr
    intro name
    constructor
    · intro held
      obtain ⟨row, member, rfl⟩ := List.mem_map.mp held
      exact wanted row member
    · intro held
      obtain ⟨profile, isProfile, rfl⟩ := List.mem_map.mp held
      obtain ⟨row, established⟩ := agrees.established profile isProfile
      obtain ⟨member, isName⟩ := sound.named_iff.mp established.named
      rw [← isName]
      exact List.mem_map_of_mem member
  · intro row member
    obtain ⟨profile, isProfile, isName⟩ := List.mem_map.mp (wanted row member)
    obtain ⟨other, established⟩ := agrees.established profile isProfile
    have same := established.named
    rw [isName, sound.named_iff.mpr ⟨member, rfl⟩, Option.some.injEq] at same
    rw [same]
    refine ⟨profile, isProfile, ?_, established.recipe⟩
    rw [isName, same]
  · intro row member
    rw [agrees.flags row member, decide_eq_true_iff]
  · intro quant member
    obtain ⟨row, isRow, isId⟩ := List.mem_map.mp (sound.codeProfiles quant member)
    exact ⟨row, isRow, isId, wanted row isRow⟩
  · intro profile isProfile space isSpace dim oneDim enough
    obtain ⟨row, established⟩ := agrees.established profile isProfile
    refine ⟨row, established.named, ?_⟩
    have passes : (loadSnapshot store desired).gate profile space = true :=
      (gate_iff (mem_group_spaces isSpace)).mpr enough
    cases settles : (loadSnapshot store desired).settled profile space with
    | true => exact (settled_iff sound established.named established.recipe space).mp settles
    | false =>
      have made := space_build_some.mpr ⟨dim, oneDim, settles, passes, rfl⟩
      rw [planned.2 profile isProfile space isSpace] at made
      cases made

theorem reconcile_converges (ids : RowIds) (codec : Int8Codec) (config : VectorQuantsConfig) (desired : DesiredState)
    (store : Store) (sound : store.Sound) (resolved : resolveDesired config = .ok desired) :
    (∃ changed synced, store.syncMetadata ids desired = .ok (changed, synced) ∧
      (loadSnapshot synced desired).planMetadata = []) ∧
    ∀ outcome first, runReconcilePass ids codec desired store = (.ok outcome, first) →
      ∃ count final total, count < maxConvergencePasses ∧ Passes ids codec desired count store final ∧
        runReconcilePass ids codec desired final = (.ok ⟨false, ChangeSummary.none⟩, final) ∧
        runReconcile ids codec desired store = (.ok total, final) ∧ Converged final desired := by
  have valid := resolve_desired_valid resolved
  constructor
  · obtain ⟨changed, synced, syncs, syncedSound, agrees, _⟩ := sync_metadata_agrees ids sound valid
    exact ⟨changed, synced, syncs, (plan_metadata_nil syncedSound valid).mpr agrees⟩
  · intro outcome first passed
    have quiet := pass_quiet sound valid passed
    have again : runReconcilePass ids codec desired first = (.ok ⟨false, ChangeSummary.none⟩, first) :=
      quiet_pass quiet valid
    have last : ∀ total, reconcilePasses ids codec desired 7 total first =
        (.ok (total.orWith ChangeSummary.none), first) := by
      intro total
      rw [reconcilePasses, again]
      rfl
    cases worked : outcome.worked with
    | true =>
        refine ⟨1, first, (ChangeSummary.none.orWith outcome.summary).orWith ChangeSummary.none, by decide,
          .more passed worked (.none first), again, ?_, quiet.converged valid⟩
        rw [runReconcile, maxConvergencePasses, reconcilePasses, passed]
        dsimp only
        rw [if_pos worked]
        exact last _
    | false =>
        have same := pass_idle passed worked
        rw [same] at again quiet
        refine ⟨0, store, ChangeSummary.none, by decide, .none store, again, ?_, quiet.converged valid⟩
        rw [runReconcile, maxConvergencePasses, reconcilePasses, again]
        rfl

end Passes

/-- The codec on vectors of zeros: their scale is one, and so is every code zero. -/
def zeroCodec : Int8Codec where
  Scale := Unit
  scaleArtifact := fun _ => [0, 0, 128, 63]
  artifactScale := fun artifact => if artifact = [0, 0, 128, 63] then some () else none
  quantizeInt8 := fun embedding _ => List.replicate (embedding.length / 4) 0

/-- A profile is wanted again whose codes are half deleted, and the default is not wanted
any more. (To build a space takes 1024 vectors.) -/
def renamedStore : Store where
  setters := [⟨1, "clip/b".toList⟩]
  vectors := [⟨7, 1, clip, [0, 0, 0, 0]⟩]
  profiles := [⟨1, "a".toList, quantizerBinaryRetired, none, .removing, false⟩,
    ⟨2, "old".toList, quantizerInt8, some "\x7b\"scheme\":\"gsym\"\x7d".toList, .active, true⟩]
  coverage := [{ profileId := 2, setterId := 1, needsArtifact := true, artifact := some [0, 0, 128, 63],
                 artifactRev := 1, dim := some 1, state := .ready }]
  quants := [⟨7, 1, 3, [0]⟩, ⟨7, 2, 1, [0]⟩]

def renamedConfig : VectorQuantsConfig where
  default := some "a".toList
  profiles := [⟨" a ".toList, quantizerBinaryRetired⟩]

def renamedDesired : DesiredState := ⟨[⟨"a".toList, quantizerInt8⟩], some "a".toList⟩

theorem renamed_store_sound : renamedStore.Sound := by
  refine ⟨?_, ?_, ?_, ?_, ?_, ?_, ?_, ?_, ?_, ?_, ?_, ?_⟩ <;> first | decide | (unfold Refers; decide)

theorem renamed_converges : ∃ count final total, count < maxConvergencePasses ∧
    Passes RowIds.largest zeroCodec renamedDesired count renamedStore final ∧
      runReconcilePass RowIds.largest zeroCodec renamedDesired final = (.ok ⟨false, ChangeSummary.none⟩, final) ∧
      runReconcile RowIds.largest zeroCodec renamedDesired renamedStore = (.ok total, final) ∧
      Converged final renamedDesired := by
  apply (reconcile_converges RowIds.largest zeroCodec renamedConfig renamedDesired renamedStore renamed_store_sound
    (by decide +kernel)).2 ⟨true, ⟨false, true, false⟩⟩
    (runReconcilePass RowIds.largest zeroCodec renamedDesired renamedStore).2
  decide +kernel

end Panoptikon.VectorQuants
