import Panoptikon.VectorQuants.Convergence
import Panoptikon.VectorQuants.Covered

/-!
# The job among the other writers

`jobs/vector_quants.rs` with the writer between any two of its steps: a step of the job is
one transaction, or one read of those that `load_snapshot` makes. The queries of a setter's
probe, of an artifact's vectors and of `resolve_ready_pair` are one read each. In between
configurations are committed, pairs are marked for a rebuild, and setters and vectors come and go. The job
may be cancelled, or begun anew, wherever it stands.
-/

namespace Panoptikon.VectorQuants

open Foundation Foundation.KeyedSort Store
open Panoptikon.Jobs (ChangeSummary)

/-- What a pass has planned and not done yet. -/
structure Work where
  /-- The passes after this one. -/
  passes : Nat
  failures : Nat := 0
  removals : List Int := []
  builds : List (Int × SpaceBuild) := []

/-- A read of `load_snapshot`, which for the setters is all their probes. -/
inductive Read where
  | profiles
  | coverage
  | setters
  | boundedCount (setterId : Int)
  | hasQuants (profileId : Int)
deriving DecidableEq

inductive Phase where
  | idle
  | syncing (passes : Nat)
  | reading (passes : Nat) (changed : Bool) (reads : List Read) (snapshot : StateSnapshot)
  | removing (profileId : Int) (work : Work)
  | dropping (profileId : Int) (work : Work)
  | building (profileId : Int) (build : SpaceBuild) (work : Work)
  | starting (profileId : Int) (build : SpaceBuild) (artifact : Option Blob) (work : Work)
  | filling (profileId : Int) (build : SpaceBuild) (setterIds : List Int) (afterId : Int) (work : Work)

def Phase.begun : Phase := .syncing (maxConvergencePasses - 1)

def nextPass (worked : Bool) : Nat → Phase
  | passes + 1 => if worked then .syncing passes else .idle
  | 0 => .idle

namespace Work

def fail (work : Work) : Work := { work with failures := work.failures + 1 }

def next (work : Work) : Phase :=
  match work.removals with
  | profileId :: rest => .removing profileId { work with removals := rest }
  | [] =>
      match work.builds with
      | (profileId, build) :: rest => .building profileId build { work with builds := rest }
      | [] => if 0 < work.failures then .idle else nextPass true work.passes

end Work

namespace StateSnapshot

def unread (desired : DesiredState) : StateSnapshot :=
  { desired, profiles := [], coverage := [], setters := [], spaces := [], boundedCounts := [], profileHasQuants := [] }

/-- The answer of a query, and the queries that it calls for. -/
def read (snapshot : StateSnapshot) (store : Store) : Read → StateSnapshot × List Read
  | .profiles => ({ snapshot with profiles := sortByKey ProfileRow.id store.profiles }, [])
  | .coverage => ({ snapshot with coverage := store.coverage }, [])
  | .setters =>
      let setters := store.loadEmbeddingSetters
      ({ snapshot with setters, spaces := groupSpaces setters },
        (setters.map EmbeddingSetter.id).map .boundedCount ++ (snapshot.profiles.map ProfileRow.id).map .hasQuants)
  | .boundedCount id =>
      ({ snapshot with
          boundedCounts := snapshot.boundedCounts ++ [(id, store.boundedVectorCount id artifactMinVectors)] }, [])
  | .hasQuants id =>
      ({ snapshot with profileHasQuants := snapshot.profileHasQuants ++ [(id, store.profileHasQuants id)] }, [])

/-- A build whose profile is missing is passed over. -/
def planned (snapshot : StateSnapshot) (passes : Nat) : Work where
  passes := passes
  removals := snapshot.planData.removals
  builds := snapshot.planData.builds.filterMap fun build =>
    (snapshot.byName build.profileName).map fun row => (row.id, build)

end StateSnapshot

section Machine

variable (ids : RowIds) (codec : Int8Codec)

/-- One step of the job; the configuration is the one that a sync finds. -/
def jobStep (config : VectorQuantsConfig) (store : Store) : Phase → Phase × Store
  | .idle => (.idle, store)
  | .syncing passes =>
      match resolveDesired config with
      | .error _ => (.idle, store)
      | .ok desired =>
          match store.syncMetadata ids desired with
          | .error _ => (.idle, store)
          | .ok (changed, after) => (.reading passes changed [.profiles, .coverage, .setters] (.unread desired), after)
  | .reading passes changed (read :: rest) snapshot =>
      let answer := snapshot.read store read
      (.reading passes changed (rest ++ answer.2) answer.1, store)
  | .reading passes changed [] snapshot =>
      if snapshot.planData.isEmpty then (nextPass changed passes, store)
      else ((snapshot.planned passes).next, store)
  | .removing profileId work =>
      let deleted := store.deleteQuantsChunk profileId deleteChunkRows
      if deleted.1 = 0 then (.dropping profileId work, deleted.2) else (.removing profileId work, deleted.2)
  | .dropping profileId work =>
      match store.dropProfile profileId with
      | .error _ => (work.fail.next, store)
      | .ok dropped => (work.next, dropped)
  | .building profileId build work =>
      if build.resume then (.filling profileId build build.setterIds 0 work, store)
      else if build.needsArtifact then
        match store.computeInt8ScaleArtifact codec build.setterIds build.dim with
        | .error _ => (work.fail.next, store)
        | .ok none => (work.next, store)
        | .ok (some artifact) => (.starting profileId build (some artifact) work, store)
      else (.starting profileId build none work, store)
  | .starting profileId build artifact work =>
      match store.startSpaceBuild profileId build.setterIds artifact build.dim with
      | .error _ => (work.fail.next, store)
      | .ok started => (.filling profileId build build.setterIds 0 work, started.2)
  | .filling profileId build (setterId :: rest) afterId work =>
      match store.backfillChunk codec profileId setterId backfillChunkRows afterId with
      | .error _ => (work.fail.next, store)
      | .ok progress =>
          if progress.written = 0 then (.filling profileId build rest 0 work, progress.store)
          else (.filling profileId build (setterId :: rest) progress.cursor work, progress.store)
  | .filling profileId build [] _ work =>
      match store.finishSpaceBuild profileId build.setterIds with
      | .error _ => (work.fail.next, store)
      | .ok finished => (work.next, finished)

/-- A call of the job failed without doing anything. -/
def Phase.interrupted : Phase → Phase
  | .idle | .syncing _ | .reading .. => .idle
  | .removing _ work | .dropping _ work | .building _ _ work | .starting _ _ _ work | .filling _ _ _ _ work =>
      work.fail.next

structure World where
  phase : Phase := .idle
  store : Store

inductive Event where
  | begin
  | cancel
  | work (config : VectorQuantsConfig)
  | interrupt
  | commit (config : VectorQuantsConfig)
  | rebuild (profileId : Int) (setterIds : List Int)
  | addSetter (row : SetterRow)
  | addEmbedding (vector : VectorRow)
  | deleteItemData (chosen : VectorRow → Bool)
  | deleteSetter (name : Text)

/-- A transaction that fails is rolled back. -/
def committed (store : Store) : Except ApiError Store → Store
  | .error _ => store
  | .ok after => after

def syncCommitted (config : VectorQuantsConfig) (store : Store) : Store :=
  match resolveDesired config with
  | .error _ => store
  | .ok desired => committed store ((store.syncMetadata ids desired).map Prod.snd)

/-- Jobs run one at a time, so none begins before the last is over. -/
def step (world : World) : Event → World
  | .begin => { world with phase := match world.phase with | .idle => .begun | phase => phase }
  | .cancel => { world with phase := .idle }
  | .work config =>
      let done := jobStep ids codec config world.store world.phase
      { phase := done.1, store := done.2 }
  | .interrupt => { world with phase := world.phase.interrupted }
  | .commit config => { world with store := syncCommitted ids config world.store }
  | .rebuild profileId setterIds =>
      { world with store := committed world.store (world.store.markSpaceRebuild profileId setterIds) }
  | .addSetter row => { world with store := committed world.store (world.store.addSetter row) }
  | .addEmbedding vector => { world with store := committed world.store (world.store.addEmbedding codec vector) }
  | .deleteItemData chosen => { world with store := world.store.deleteItemData chosen }
  | .deleteSetter name => { world with store := world.store.deleteSetterByName name }

def run (events : List Event) (world : World) : World := events.foldl (step ids codec) world

end Machine

structure ReadyPair (codec : Int8Codec) where
  profileId : Int
  scale : codec.Scale
  dim : Int

section Resolving

variable (codec : Int8Codec) [DecidableEq codec.Scale] (store : Store)

/-- The pair of one setter, if it may be searched by. -/
def readyPair (profileId setterId : Int) : Option (ReadyPair codec) := do
  let pair ← (store.pair profileId setterId).filter fun pair => pair.state = .ready
  let dim ← pair.dim
  let scale ← pair.scale codec
  return { profileId, scale, dim }

/-- The loop over the setters, with what the earlier ones agree on. -/
def resolveSetters (profileId : Int) :
    List Text → Option (ReadyPair codec) → Option (Option (ReadyPair codec))
  | [], result => some result
  | name :: rest, result =>
      match rowWith SetterRow.name name store.setters with
      | none => resolveSetters profileId rest result
      | some setter =>
          match readyPair codec store profileId setter.id with
          | none => none
          | some found =>
              match result with
              | none => resolveSetters profileId rest (some found)
              | some existing =>
                  if existing.scale ≠ found.scale ∨ existing.dim ≠ found.dim then none
                  else resolveSetters profileId rest (some existing)

/-- `none` where the profile is not active, where a setter's pair is not ready, and where
no setter exists. -/
def resolveReadyPair (profileName : Text) (setterNames : List Text) : Option (ReadyPair codec) :=
  match store.profiles.find? fun row => row.name = profileName && row.state = .active with
  | none => none
  | some profile => (resolveSetters codec store profile.id setterNames none).join

end Resolving

/-- Profiles that are not wanted have nothing that is searched by. -/
def Undesired (desired : DesiredState) (store : Store) : Prop :=
  ∀ row ∈ store.profiles, row.state = .active → row.name ∉ desired.names →
    ∀ pair ∈ store.coverage, pair.profileId = row.id → pair.state = .pending

/-- The removals may delete codes. -/
def Work.Safe (work : Work) (store : Store) : Prop := ∀ profileId ∈ work.removals, Removable store profileId

def StateSnapshot.doomed (snapshot : StateSnapshot) (row : ProfileRow) : Bool :=
  !snapshot.desires row.name || row.state = .removing

def Phase.Safe (store : Store) : Phase → Prop
  | .idle | .syncing _ => True
  | .reading _ _ reads snapshot =>
      (Read.profiles ∈ reads → Undesired snapshot.desired store) ∧
        ∀ row ∈ snapshot.profiles, snapshot.doomed row = true → Removable store row.id
  | .removing profileId work => Removable store profileId ∧ work.Safe store
  | .dropping _ work => work.Safe store
  -- The builds come after all removals.
  | .building _ _ work | .starting _ _ _ work | .filling _ _ _ _ work => work.removals = []

structure World.Safe (codec : Int8Codec) (world : World) : Prop where
  covering : Covering codec (fun _ => False) world.store
  phase : world.phase.Safe world.store

section Phases

variable {store after : Store}

variable {desired : DesiredState}

theorem Undesired.calm (undesired : Undesired desired store) (calms : Calms store after) :
    Undesired desired after := by
  intro row isRow active unwanted pair isPair ofRow
  by_contra begun
  obtain ⟨wasPair, named⟩ := calms pair isPair begun
  obtain ⟨old, isOld, sameId, oldActive, sameName⟩ := named row isRow ofRow.symm active
  apply begun
  apply undesired old isOld oldActive _ pair wasPair (ofRow.trans sameId.symm)
  rw [sameName]
  exact unwanted

variable {work : Work}

theorem Work.Safe.calm (safe : work.Safe store) (calms : Calms store after) : work.Safe after :=
  fun profileId member => (safe profileId member).calm calms

theorem Phase.Safe.calm {phase : Phase} (safe : phase.Safe store) (calms : Calms store after) :
    phase.Safe after := by
  cases phase with
  | idle | syncing => trivial
  | reading passes changed reads snapshot =>
    exact ⟨fun member => (safe.1 member).calm calms, fun row isRow doomed => (safe.2 row isRow doomed).calm calms⟩
  | removing profileId work => exact ⟨safe.1.calm calms, Work.Safe.calm safe.2 calms⟩
  | dropping profileId work => exact Work.Safe.calm safe calms
  | building | starting | filling => exact safe

theorem Work.Safe.next (safe : work.Safe store) : work.next.Safe store := by
  unfold Work.next
  split
  · rename_i profileId rest isRemovals
    have each : ∀ other ∈ profileId :: rest, Removable store other := isRemovals ▸ safe
    exact ⟨each profileId List.mem_cons_self, fun other member => each other (List.mem_cons_of_mem _ member)⟩
  · rename_i isRemovals
    split
    · exact isRemovals
    · split
      · trivial
      · cases work.passes <;> trivial

theorem Work.Safe.of_nil (none_ : work.removals = []) : work.Safe store := by
  intro profileId member
  rw [none_] at member
  cases member

theorem Work.Safe.fail (safe : work.Safe store) : work.fail.Safe store := safe

theorem doomed_removable (sound : store.Sound) (undesired : Undesired desired store)
    {row : ProfileRow} (isRow : row ∈ store.profiles)
    (doomed : row.name ∉ desired.names ∨ row.state = .removing) : Removable store row.id := by
  intro pair isPair ofRow begun active
  obtain ⟨other, isOther, sameId, otherActive⟩ := active
  have sameRow := sound.id_injective isOther isRow sameId
  subst sameRow
  rcases doomed with unwanted | removing
  · exact begun (undesired other isOther otherActive unwanted pair isPair ofRow)
  · rw [otherActive] at removing
    cases removing

variable {snapshot : StateSnapshot}

theorem doomed_iff {row : ProfileRow} :
    snapshot.doomed row = true ↔ row.name ∉ snapshot.desired.names ∨ row.state = .removing := by
  rw [StateSnapshot.doomed, Bool.or_eq_true, Bool.not_eq_true', decide_eq_true_iff, StateSnapshot.desires,
    List.any_eq_false]
  apply or_congr_left
  rw [DesiredState.names, List.mem_map]
  constructor
  · intro none_ member
    obtain ⟨profile, isProfile, same⟩ := member
    exact none_ profile isProfile (decide_eq_true same)
  · intro unwanted profile isProfile same
    exact unwanted ⟨profile, isProfile, of_decide_eq_true same⟩

theorem planned_safe (passes : Nat)
    (removable : ∀ row ∈ snapshot.profiles, snapshot.doomed row = true → Removable store row.id) :
    (snapshot.planned passes).Safe store := by
  intro profileId member
  obtain ⟨row, chosen, rfl⟩ := List.mem_map.mp member
  obtain ⟨isRow, removal⟩ := List.mem_filter.mp chosen
  rw [StateSnapshot.removal, Bool.and_eq_true] at removal
  exact removable row isRow removal.1

/-- The queries that follow one another see the tables as they are at each. -/
theorem read_safe (sound : store.Sound) {read : Read} {rest : List Read}
    {passes : Nat} {changed : Bool} (safe : (Phase.reading passes changed (read :: rest) snapshot).Safe store) :
    (Phase.reading passes changed (rest ++ (snapshot.read store read).2) (snapshot.read store read).1).Safe store := by
  have sameDesired : (snapshot.read store read).1.desired = snapshot.desired := by
    cases read <;> rfl
  have noProfiles : Read.profiles ∉ (snapshot.read store read).2 := by
    cases read with
    | setters =>
      intro member
      rcases List.mem_append.mp member with count | codes
      · obtain ⟨id, -, same⟩ := List.mem_map.mp count
        cases same
      · obtain ⟨id, -, same⟩ := List.mem_map.mp codes
        cases same
    | profiles | coverage | boundedCount | hasQuants => exact List.not_mem_nil
  constructor
  · intro member
    rw [sameDesired]
    apply safe.1
    exact List.mem_cons_of_mem _ ((List.mem_append.mp member).resolve_right noProfiles)
  · intro row isRow doomed
    cases read with
    | profiles =>
      exact doomed_removable sound (safe.1 List.mem_cons_self) ((sort_perm _ _).mem_iff.mp isRow)
        (doomed_iff.mp doomed)
    | setters | coverage | boundedCount | hasQuants => exact safe.2 row isRow doomed

theorem synced_undesired {ids : RowIds} {config : VectorQuantsConfig} {changed : Bool}
    (sound : store.Sound) (resolved : resolveDesired config = .ok desired)
    (synced : store.syncMetadata ids desired = .ok (changed, after)) : Undesired desired after := by
  obtain ⟨flag, agreed, same, -, agrees, -⟩ :=
    sync_metadata_agrees ids sound (resolve_desired_valid resolved)
  cases synced.symm.trans same
  intro row isRow active unwanted
  have removing := (agrees.retiring row isRow unwanted).removing
  rw [active] at removing
  cases removing

end Phases

section Steps

variable {ids : RowIds} {codec : Int8Codec} {store : Store}

theorem OnlyCodes.calms {after : Store} (only : OnlyCodes store after) : Calms store after := by
  intro pair member _
  rw [only.coverage] at member
  refine ⟨member, fun row isRow _ active => ?_⟩
  rw [only.profiles] at isRow
  exact ⟨row, isRow, rfl, active, rfl⟩

variable {world : World}

theorem World.Safe.reset (safe : world.Safe codec) {after : Store}
    (resets : Resets world.store after) : World.Safe codec { world with store := after } where
  covering := safe.covering.reset resets
  phase := safe.phase.calm resets.calms

variable {phase : Phase}

theorem World.Safe.enter (safe : world.Safe codec)
    (known : phase.Safe world.store) : World.Safe codec { world with phase } where
  covering := safe.covering
  phase := known

theorem next_pass_safe (worked : Bool) (passes : Nat) : (nextPass worked passes).Safe store := by
  unfold nextPass
  split
  · split <;> trivial
  · trivial

theorem job_step_safe {config : VectorQuantsConfig}
    (covering : Covering codec (fun _ => False) store) (safe : phase.Safe store) :
    World.Safe codec ⟨(jobStep ids codec config store phase).1, (jobStep ids codec config store phase).2⟩ := by
  have sound := covering.sound
  cases phase with
  | idle => exact ⟨covering, trivial⟩
  | syncing passes =>
    unfold jobStep
    dsimp only
    split
    · exact ⟨covering, trivial⟩
    rename_i desired resolved
    split
    · exact ⟨covering, trivial⟩
    rename_i changed after synced
    refine ⟨covering.reset (sync_metadata_resets sound synced), ?_, ?_⟩
    · exact fun _ => synced_undesired sound resolved synced
    · intro row isRow
      cases isRow
  | reading passes changed reads snapshot =>
    cases reads with
    | cons read rest => exact ⟨covering, read_safe sound safe⟩
    | nil =>
      unfold jobStep
      dsimp only
      split
      · exact ⟨covering, next_pass_safe changed passes⟩
      · exact ⟨covering, (planned_safe passes safe.2).next⟩
  | removing profileId work =>
    have deleted := delete_chunk_covering covering safe.1 deleteChunkRows
    have calms := (@delete_chunk_only store profileId deleteChunkRows).calms
    unfold jobStep
    dsimp only
    split
    · exact ⟨deleted, Work.Safe.calm safe.2 calms⟩
    · exact ⟨deleted, safe.1.calm calms, Work.Safe.calm safe.2 calms⟩
  | dropping profileId work =>
    unfold jobStep dropProfile
    dsimp only
    split
    · exact ⟨covering, Work.Safe.next (Work.Safe.fail safe)⟩
    · rename_i dropped isDropped
      split at isDropped
      · cases isDropped
      · cases isDropped
        have resets : Resets store (store.deleteProfiles fun row => row.id = profileId) :=
          delete_profiles_resets _
        exact ⟨covering.reset resets, (Work.Safe.calm safe resets.calms).next⟩
  | building profileId build work =>
    have onward : work.Safe store := Work.Safe.of_nil safe
    unfold jobStep
    dsimp only
    split
    · exact ⟨covering, safe⟩
    split
    · split
      · exact ⟨covering, onward.fail.next⟩
      · exact ⟨covering, onward.next⟩
      · exact ⟨covering, safe⟩
    · exact ⟨covering, safe⟩
  | starting profileId build artifact work =>
    unfold jobStep
    dsimp only
    split
    · exact ⟨covering, (Work.Safe.of_nil safe).fail.next⟩
    · exact ⟨start_covering covering ‹_›, safe⟩
  | filling profileId build setterIds afterId work =>
    cases setterIds with
    | cons setterId rest =>
      unfold jobStep
      dsimp only
      split
      · exact ⟨covering, (Work.Safe.of_nil safe).fail.next⟩
      rename_i progress chunk
      split
      · exact ⟨backfill_covering covering chunk, safe⟩
      · exact ⟨backfill_covering covering chunk, safe⟩
    | nil =>
      unfold jobStep
      dsimp only
      split
      · exact ⟨covering, (Work.Safe.of_nil safe).fail.next⟩
      · exact ⟨finish_covering covering ‹_›, (Work.Safe.of_nil safe).next⟩

theorem interrupted_safe (safe : phase.Safe store) : phase.interrupted.Safe store := by
  cases phase with
  | idle | syncing | reading => trivial
  | removing profileId work => exact Work.Safe.next (Work.Safe.fail safe.2)
  | dropping profileId work => exact Work.Safe.next (Work.Safe.fail safe)
  | building | starting | filling => exact (Work.Safe.of_nil safe).fail.next

theorem commit_resets {config : VectorQuantsConfig} (sound : store.Sound) :
    Resets store (syncCommitted ids config store) := by
  unfold syncCommitted
  split
  · exact Resets.refl store
  · rename_i desired _
    cases synced : store.syncMetadata ids desired with
    | error failure => exact Resets.refl store
    | ok outcome => exact sync_metadata_resets sound synced

theorem committed_safe (safe : world.Safe codec) {result : Except ApiError Store}
    (resets : ∀ after, result = .ok after → Resets world.store after) :
    World.Safe codec { world with store := committed world.store result } := by
  cases result with
  | error failure => exact safe
  | ok after => exact safe.reset (resets after rfl)

theorem step_safe (safe : world.Safe codec) (event : Event) : (step ids codec world event).Safe codec := by
  have sound := safe.covering.sound
  cases event with
  | begin =>
    apply safe.enter
    split
    · trivial
    · exact safe.phase
  | cancel => exact safe.enter trivial
  | work config => exact job_step_safe safe.covering safe.phase
  | interrupt => exact safe.enter (interrupted_safe safe.phase)
  | commit config => exact safe.reset (commit_resets sound)
  | rebuild profileId setterIds => exact committed_safe safe fun _ marked => mark_rebuild_resets marked
  | addSetter row => exact committed_safe safe fun _ added => add_setter_resets sound added
  | addEmbedding vector =>
    change World.Safe codec { world with store := committed world.store (world.store.addEmbedding codec vector) }
    cases added : world.store.addEmbedding codec vector with
    | error failure => exact safe
    | ok after =>
      exact ⟨add_embedding_covering safe.covering added,
        safe.phase.calm (add_embedding_calms safe.covering added)⟩
  | deleteItemData chosen => exact safe.reset (delete_item_data_resets sound chosen)
  | deleteSetter name => exact safe.reset (delete_setter_resets sound name)

theorem events_safe (safe : world.Safe codec) (events : List Event) : (run ids codec events world).Safe codec := by
  induction events generalizing world with
  | nil => exact safe
  | cons event rest ih => exact ih (step_safe safe event)

end Steps

section Searching

variable {ids : RowIds} {codec : Int8Codec} {store : Store}

theorem fresh_covering (sound : store.Sound) (noPairs : store.coverage = []) (noCodes : store.quants = []) :
    Covering codec (fun _ => False) store where
  sound := sound
  revised := by
    intro quant isQuant
    rw [noCodes] at isQuant
    cases isQuant
  coded := by
    intro quant isQuant
    rw [noCodes] at isQuant
    cases isQuant
  covered := by
    intro pair isPair
    rw [noPairs] at isPair
    cases isPair

theorem ready_pair_some {profileId setterId : Int} {found : ReadyPair codec}
    (ready : readyPair codec store profileId setterId = some found) :
    found.profileId = profileId ∧ ∃ pair, store.pair profileId setterId = some pair ∧ pair.state = .ready ∧
      pair.dim = some found.dim ∧ pair.scale codec = some found.scale := by
  unfold readyPair at ready
  obtain ⟨pair, isPair, rest⟩ := Option.bind_eq_some_iff.mp ready
  obtain ⟨dim, isDim, rest⟩ := Option.bind_eq_some_iff.mp rest
  obtain ⟨scale, isScale, same⟩ := Option.bind_eq_some_iff.mp rest
  cases same
  obtain ⟨member, isReady⟩ := Option.filter_eq_some_iff.mp isPair
  exact ⟨rfl, pair, member, of_decide_eq_true isReady, isDim, isScale⟩

variable [DecidableEq codec.Scale]

theorem resolve_setters_agree {profileId : Int} {names : List Text} {result : Option (ReadyPair codec)}
    {answer : ReadyPair codec} (ofProfile : ∀ existing, result = some existing → existing.profileId = profileId)
    (resolved : resolveSetters codec store profileId names result = some (some answer)) :
    answer.profileId = profileId ∧
      (∀ existing, result = some existing → existing.scale = answer.scale ∧ existing.dim = answer.dim) ∧
      ∀ name ∈ names, ∀ setter, rowWith SetterRow.name name store.setters = some setter → ∃ found,
        readyPair codec store profileId setter.id = some found ∧ found.scale = answer.scale ∧
          found.dim = answer.dim := by
  induction names generalizing result with
  | nil =>
    cases resolved
    refine ⟨ofProfile answer rfl, ?_, nofun⟩
    intro existing same
    cases same
    exact ⟨rfl, rfl⟩
  | cons first rest ih =>
    unfold resolveSetters at resolved
    split at resolved
    · rename_i missing
      obtain ⟨profile, agrees, others⟩ := ih ofProfile resolved
      refine ⟨profile, agrees, fun name member setter isSetter => ?_⟩
      rcases List.mem_cons.mp member with rfl | later
      · rw [missing] at isSetter
        cases isSetter
      · exact others name later setter isSetter
    · rename_i setter isSetter
      split at resolved
      · cases resolved
      rename_i found isFound
      have foundProfile := (ready_pair_some isFound).1
      split at resolved
      · have alone : ∀ existing, some found = some existing → existing.profileId = profileId := by
          intro existing same
          cases same
          exact foundProfile
        obtain ⟨profile, agrees, others⟩ := ih alone resolved
        refine ⟨profile, fun _ absent => absurd absent.symm (Option.some_ne_none _), ?_⟩
        intro name member other isOther
        rcases List.mem_cons.mp member with rfl | later
        · cases isSetter.symm.trans isOther
          exact ⟨found, isFound, agrees found rfl⟩
        · exact others name later other isOther
      · rename_i existing
        split at resolved
        · cases resolved
        rename_i same
        rw [not_or, not_not, not_not] at same
        obtain ⟨profile, agrees, others⟩ := ih ofProfile resolved
        refine ⟨profile, agrees, fun name member other isOther => ?_⟩
        rcases List.mem_cons.mp member with rfl | later
        · cases isSetter.symm.trans isOther
          have agreed := agrees existing rfl
          exact ⟨found, isFound, same.1.symm.trans agreed.1, same.2.symm.trans agreed.2⟩
        · exact others name later other isOther

/-- What `resolve_ready_pair` answers holds of every setter that it was asked for and
that exists. -/
theorem resolve_ready_pair_some {profileName : Text} {names : List Text} {answer : ReadyPair codec}
    (resolved : resolveReadyPair codec store profileName names = some answer) : Active store answer.profileId ∧
      ∀ name ∈ names, ∀ setter, rowWith SetterRow.name name store.setters = some setter → ∃ pair,
        store.pair answer.profileId setter.id = some pair ∧ pair.state = .ready ∧ pair.dim = some answer.dim ∧
          pair.scale codec = some answer.scale := by
  unfold resolveReadyPair at resolved
  split at resolved
  · cases resolved
  rename_i profile isProfile
  have settersResolved := Option.join_eq_some_iff.mp resolved
  have fresh : ∀ existing : ReadyPair codec, none = some existing → existing.profileId = profile.id :=
    fun _ absent => absurd absent.symm (Option.some_ne_none _)
  obtain ⟨sameProfile, -, each⟩ := resolve_setters_agree fresh settersResolved
  constructor
  · have chosen := List.find?_some isProfile
    rw [Bool.and_eq_true, decide_eq_true_iff, decide_eq_true_iff] at chosen
    exact ⟨profile, List.mem_of_find?_eq_some isProfile, sameProfile.symm, chosen.2⟩
  · intro name asked setter isSetter
    obtain ⟨found, isFound, sameScale, sameDim⟩ := each name asked setter isSetter
    obtain ⟨-, pair, isPair, isReady, isDim, isScale⟩ := ready_pair_some isFound
    rw [sameProfile]
    exact ⟨pair, isPair, isReady, sameDim ▸ isDim, sameScale ▸ isScale⟩

/-- Every vector of the setters has the code that it quantizes to with the one scale. -/
def ReadyPair.Reaches (answer : ReadyPair codec) (store : Store) (names : List Text) : Prop :=
  ∀ setter ∈ store.setters, setter.name ∈ names → ∀ vector ∈ store.vectors, vector.setterId = setter.id →
    (vector.embedding.length : Int) = answer.dim * 4 ∧ ∃ pair quant,
      store.pair answer.profileId setter.id = some pair ∧ quant ∈ store.quants ∧
      quant.key = (vector.id, answer.profileId) ∧ quant.rev = pair.artifactRev ∧
      quant.quant = codec.quantizeInt8 vector.embedding answer.scale

/-- Wherever the job and the other writers stand, a search finds all it asks for. -/
theorem resolved_are_coded (sound : store.Sound) (noPairs : store.coverage = []) (noCodes : store.quants = [])
    {events : List Event} {world : World} (reached : run ids codec events { store } = world)
    {profileName : Text} {names : List Text} {answer : ReadyPair codec}
    (resolved : resolveReadyPair codec world.store profileName names = some answer) :
    answer.Reaches world.store names := by
  have start : World.Safe codec { store } := ⟨fresh_covering sound noPairs noCodes, trivial⟩
  have covering := (@events_safe ids codec _ start events).covering
  rw [reached] at covering
  obtain ⟨active, ready⟩ := resolve_ready_pair_some resolved
  intro setter isSetter asked vector isVector ofSetter
  obtain ⟨pair, isPair, isReady, isDim, isScale⟩ :=
    ready setter.name asked setter ((row_with_eq_some covering.sound.setterNames).mpr ⟨isSetter, rfl⟩)
  obtain ⟨member, keyed⟩ := covering.sound.pair_iff.mp isPair
  have ofProfile : pair.profileId = answer.profileId := congrArg Prod.fst keyed
  have pairSetter : pair.setterId = setter.id := congrArg Prod.snd keyed
  have held := covering.covered pair member isReady (ofProfile ▸ active) (by rw [isDim]; rfl)
    (by rw [isScale]; rfl) vector isVector (ofSetter.trans pairSetter.symm) id
  obtain ⟨quant, isQuant, quantKeyed, ofRev⟩ := quantized_iff.mp held
  have isVectors : vector.id = quant.id := (congrArg Prod.fst quantKeyed).symm
  have quantProfile : quant.profileId = pair.profileId := congrArg Prod.snd quantKeyed
  have pairKeyed : pair.key = (quant.profileId, vector.setterId) := by
    rw [CoverageRow.key, quantProfile, ofSetter, pairSetter]
  obtain ⟨fits, scale, scaled, coded⟩ :=
    covering.coded quant isQuant vector isVector isVectors pair member pairKeyed (begun_of_ready isReady) ofRev
  cases isScale.symm.trans scaled
  rw [CoverageRow.Fits, isDim, Option.map_some, Option.some.injEq] at fits
  exact ⟨fits.symm, pair, quant, isPair, isQuant, quantKeyed.trans (by rw [ofProfile]), ofRev, coded⟩

end Searching

instance : DecidableEq zeroCodec.Scale := inferInstanceAs (DecidableEq Unit)

/-- A setter with as many vectors. -/
def crowdedStore (count : Nat) : Store where
  setters := [⟨1, "clip/b".toList⟩]
  vectors := (List.range count).map fun id : Nat => ⟨Int.ofNat id, 1, clip, [0, 0, 0, 0]⟩

/-- Once a build is planned all vectors but one are deleted, and another is stored just
before the pair is finished. -/
def thinnedEvents : List Event :=
  .begin :: List.replicate 7 (.work renamedConfig) ++ [.deleteItemData fun row => row.id ≠ 3] ++
    List.replicate 4 (.work renamedConfig) ++ [.addEmbedding ⟨2000, 1, clip, [0, 0, 0, 0]⟩, .work renamedConfig]

theorem crowded_store_sound (count : Nat) : (crowdedStore count).Sound where
  setterIds := List.nodup_singleton _
  setterNames := List.nodup_singleton _
  vectorIds := by
    have ids : (crowdedStore count).vectors.map VectorRow.id = (List.range count).map Int.ofNat := List.map_map
    rw [ids]
    exact List.nodup_range.map fun _ _ same => Int.ofNat.inj same
  profileIds := List.nodup_nil
  profileNames := List.nodup_nil
  pairs := List.nodup_nil
  codes := List.nodup_nil
  vectorSetters := by
    intro vector member
    obtain ⟨id, -, rfl⟩ := List.mem_map.mp member
    exact List.mem_singleton_self _
  pairProfiles := nofun
  pairSetters := nofun
  codeProfiles := nofun
  codeVectors := nofun

def thinned : World := run RowIds.largest zeroCodec thinnedEvents { store := crowdedStore artifactMinVectors }

theorem thinned_are_coded : ∃ answer,
    resolveReadyPair zeroCodec thinned.store "a".toList ["clip/b".toList] = some answer ∧
    answer.Reaches thinned.store ["clip/b".toList] := by
  have answers : (resolveReadyPair zeroCodec thinned.store "a".toList ["clip/b".toList]).isSome = true := by
    decide +kernel
  obtain ⟨answer, resolved⟩ := Option.isSome_iff_exists.mp answers
  have reached : run RowIds.largest zeroCodec thinnedEvents { store := crowdedStore artifactMinVectors } =
      thinned := by
    rw [thinned]
  exact ⟨answer, resolved, resolved_are_coded (crowded_store_sound artifactMinVectors) rfl rfl reached resolved⟩

section Alone

variable {ids : RowIds} {codec : Int8Codec} {config : VectorQuantsConfig} {desired : DesiredState}

/-- Some number of the job's own steps. -/
def Leads (ids : RowIds) (codec : Int8Codec) (config : VectorQuantsConfig) (before after : World) : Prop :=
  ∃ count, run ids codec (List.replicate count (.work config)) before = after

theorem Leads.refl (world : World) : Leads ids codec config world world := ⟨0, rfl⟩

theorem Leads.trans {first second third : World} (former : Leads ids codec config first second)
    (latter : Leads ids codec config second third) : Leads ids codec config first third := by
  obtain ⟨some_, rfl⟩ := former
  obtain ⟨more, rfl⟩ := latter
  refine ⟨some_ + more, ?_⟩
  rw [List.replicate_add, run, List.foldl_append]
  rfl

theorem Leads.head {before middle after : World} (one : step ids codec before (.work config) = middle)
    (rest : Leads ids codec config middle after) : Leads ids codec config before after :=
  Leads.trans ⟨1, one⟩ rest

theorem reads_lead {passes : Nat} {changed : Bool} {store : Store} (reads rest : List Read)
    (plain : ∀ read ∈ reads, ∀ snapshot : StateSnapshot, (snapshot.read store read).2 = [])
    (snapshot : StateSnapshot) : Leads ids codec config ⟨.reading passes changed (reads ++ rest) snapshot, store⟩
      ⟨.reading passes changed rest (reads.foldl (fun known read => (known.read store read).1) snapshot), store⟩ := by
  induction reads generalizing snapshot with
  | nil => exact Leads.refl _
  | cons first others ih =>
    apply Leads.head rfl
    have none_ := plain first List.mem_cons_self snapshot
    change Leads ids codec config
      ⟨.reading passes changed ((others ++ rest) ++ (snapshot.read store first).2) (snapshot.read store first).1,
        store⟩ _
    rw [none_, List.append_nil]
    exact ih (fun read member => plain read (List.mem_cons_of_mem _ member)) _

theorem counts_read (store : Store) (setterIds : List Int) (snapshot : StateSnapshot) :
    (setterIds.map Read.boundedCount).foldl (fun known read => (known.read store read).1) snapshot =
      { snapshot with
        boundedCounts := snapshot.boundedCounts ++
          setterIds.map fun id => (id, store.boundedVectorCount id artifactMinVectors) } := by
  induction setterIds generalizing snapshot with
  | nil => simp
  | cons first rest ih =>
    rw [List.map_cons, List.foldl_cons, ih]
    simp [StateSnapshot.read]

theorem codes_read (store : Store) (profileIds : List Int) (snapshot : StateSnapshot) :
    (profileIds.map Read.hasQuants).foldl (fun known read => (known.read store read).1) snapshot =
      { snapshot with
        profileHasQuants := snapshot.profileHasQuants ++
          profileIds.map fun id => (id, store.profileHasQuants id) } := by
  induction profileIds generalizing snapshot with
  | nil => simp
  | cons first rest ih =>
    rw [List.map_cons, List.foldl_cons, ih]
    simp [StateSnapshot.read]

theorem snapshot_read (passes : Nat) (changed : Bool) (store : Store) : Leads ids codec config
      ⟨.reading passes changed [.profiles, .coverage, .setters] (.unread desired), store⟩
      ⟨.reading passes changed [] (loadSnapshot store desired), store⟩ := by
  let setterIds := store.loadEmbeddingSetters.map EmbeddingSetter.id
  let profileIds := (sortByKey ProfileRow.id store.profiles).map ProfileRow.id
  let listed : StateSnapshot :=
    { StateSnapshot.unread desired with
      profiles := sortByKey ProfileRow.id store.profiles
      coverage := store.coverage
      setters := store.loadEmbeddingSetters
      spaces := groupSpaces store.loadEmbeddingSetters }
  have counts := @reads_lead ids codec config passes changed store (setterIds.map .boundedCount)
    (profileIds.map .hasQuants) (by
      intro read member snapshot
      obtain ⟨id, -, rfl⟩ := List.mem_map.mp member
      rfl) listed
  have codes := @reads_lead ids codec config passes changed store (profileIds.map .hasQuants) [] (by
      intro read member snapshot
      obtain ⟨id, -, rfl⟩ := List.mem_map.mp member
      rfl)
    { listed with boundedCounts := setterIds.map fun id => (id, store.boundedVectorCount id artifactMinVectors) }
  rw [counts_read] at counts
  rw [List.append_nil, codes_read] at codes
  exact Leads.head rfl (Leads.head rfl (Leads.head rfl (counts.trans codes)))

variable (profileId : Int)

theorem removal_leads (work : Work) (store : Store) : Leads ids codec config ⟨.removing profileId work, store⟩
      ⟨.dropping profileId work, deleteQuants profileId store⟩ := by
  induction store using deleteQuants.induct profileId with
  | case1 store done =>
    rw [deleteQuants, if_pos done]
    refine ⟨1, ?_⟩
    change step ids codec ⟨.removing profileId work, store⟩ (.work config) = _
    unfold step jobStep
    dsimp only
    rw [if_pos done]
  | case2 store more ih =>
    rw [deleteQuants, if_neg more]
    refine Leads.head ?_ ih
    unfold step jobStep
    dsimp only
    rw [if_neg more]

/-- What is left of a pass that has come as far as the progress. -/
def PassProgress.world (progress : PassProgress) (passes : Nat) (removals : List Int)
    (builds : List (Int × SpaceBuild)) : World where
  phase := Work.next { passes, failures := progress.failures, removals, builds }
  store := progress.store

theorem removals_lead (passes : Nat) (builds : List (Int × SpaceBuild)) (removals : List Int)
    (progress : PassProgress) : Leads ids codec config (progress.world passes removals builds)
      ((removals.foldl runRemoval progress).world passes [] builds) := by
  induction removals generalizing progress with
  | nil => exact Leads.refl _
  | cons first rest ih =>
    refine (removal_leads first ⟨passes, progress.failures, rest, builds⟩ progress.store).trans ?_
    rw [List.foldl_cons]
    refine Leads.head ?_ (ih (runRemoval progress first))
    unfold step jobStep runRemoval removeProfileQuants
    dsimp only
    cases (deleteQuants first progress.store).dropProfile first with
    | error | ok => rfl

theorem backfill_pair_eq (profileId setterId afterId : Int) (store : Store) :
    backfillPair codec profileId setterId afterId store =
      match store.backfillChunk codec profileId setterId backfillChunkRows afterId with
      | .error failure => (.error failure, store)
      | .ok progress =>
        if progress.written = 0 then (.ok (), progress.store)
        else backfillPair codec profileId setterId progress.cursor progress.store := by
  rw [backfillPair]
  split <;> rename_i chunk <;> rw [chunk]

/-- Where the chunks of a pair lead. -/
def filledWorld (profileId : Int) (build : SpaceBuild) (work : Work) (rest : List Int) :
    Except ApiError Unit × Store → World
  | (.error _, after) => ⟨work.fail.next, after⟩
  | (.ok (), after) => ⟨.filling profileId build rest 0 work, after⟩

theorem filling_leads (build : SpaceBuild) (work : Work) (setterId : Int) (rest : List Int)
    (afterId : Int) (store : Store) :
    Leads ids codec config ⟨.filling profileId build (setterId :: rest) afterId work, store⟩
      (filledWorld profileId build work rest (backfillPair codec profileId setterId afterId store)) := by
  induction afterId, store using backfillPair.induct codec profileId setterId with
  | case1 afterId store failure chunk =>
    rw [backfill_pair_eq, chunk]
    apply Leads.head _ (Leads.refl _)
    unfold step jobStep
    dsimp only
    rw [chunk]
    rfl
  | case2 afterId store progress chunk done =>
    rw [backfill_pair_eq, chunk]
    dsimp only
    rw [if_pos done]
    apply Leads.head _ (Leads.refl _)
    unfold step jobStep
    dsimp only
    rw [chunk]
    dsimp only
    rw [if_pos done]
    rfl
  | case3 afterId store progress chunk more ih =>
    rw [backfill_pair_eq, chunk]
    dsimp only
    rw [if_neg more]
    apply Leads.head _ ih
    unfold step jobStep
    dsimp only
    rw [chunk]
    dsimp only
    rw [if_neg more]

/-- Where a build leads whose pairs have been filled. -/
def finishedWorld (profileId : Int) (build : SpaceBuild) (work : Work) : Except ApiError Unit × Store → World
  | (.error _, after) => ⟨work.fail.next, after⟩
  | (.ok (), after) =>
      match after.finishSpaceBuild profileId build.setterIds with
      | .error _ => ⟨work.fail.next, after⟩
      | .ok finished => ⟨work.next, finished⟩

theorem fillings_lead (build : SpaceBuild) (work : Work) (setterIds : List Int) (store : Store) :
    Leads ids codec config ⟨.filling profileId build setterIds 0 work, store⟩
      (finishedWorld profileId build work (backfillPairs codec profileId setterIds store)) := by
  induction setterIds generalizing store with
  | nil =>
    apply Leads.head _ (Leads.refl _)
    unfold step jobStep backfillPairs finishedWorld
    dsimp only
    cases store.finishSpaceBuild profileId build.setterIds with
    | error | ok => rfl
  | cons first rest ih =>
    apply (filling_leads profileId build work first rest 0 store).trans
    rw [backfillPairs]
    cases backfillPair codec profileId first 0 store with
    | mk result after =>
      cases result with
      | error failure => exact Leads.refl _
      | ok done => exact ih after

/-- Where a build leads. -/
def builtWorld (work : Work) : Except ApiError Unit × Store → World
  | (.error _, after) => ⟨work.fail.next, after⟩
  | (.ok (), after) => ⟨work.next, after⟩

theorem finished_world_eq (build : SpaceBuild) (work : Work) (store started : Store)
    (starts : startBuild codec profileId build store = .ok (some started)) :
    finishedWorld profileId build work (backfillPairs codec profileId build.setterIds started) =
      builtWorld work (buildSpace codec profileId build store) := by
  unfold buildSpace
  rw [starts]
  dsimp only
  cases backfillPairs codec profileId build.setterIds started with
  | mk result filled =>
    cases result with
    | error failure => rfl
    | ok done =>
      unfold finishedWorld
      dsimp only
      cases filled.finishSpaceBuild profileId build.setterIds with
      | error | ok => rfl

theorem starting_leads (build : SpaceBuild) (artifact : Option Blob) (work : Work) (store : Store)
    (startsWith : startBuild codec profileId build store =
      (store.startSpaceBuild profileId build.setterIds artifact build.dim).map fun started => some started.2) :
    Leads ids codec config ⟨.starting profileId build artifact work, store⟩
      (builtWorld work (buildSpace codec profileId build store)) := by
  cases starts : store.startSpaceBuild profileId build.setterIds artifact build.dim with
  | error failure =>
    rw [starts] at startsWith
    apply Leads.head _ (Leads.refl _)
    unfold step jobStep buildSpace
    dsimp only
    rw [starts, startsWith]
    rfl
  | ok started =>
    rw [starts] at startsWith
    rw [← finished_world_eq profileId build work store started.2 startsWith]
    apply Leads.head _ (fillings_lead profileId build work build.setterIds started.2)
    unfold step jobStep
    dsimp only
    rw [starts]

theorem building_leads (build : SpaceBuild) (work : Work) (store : Store) :
    Leads ids codec config ⟨.building profileId build work, store⟩
      (builtWorld work (buildSpace codec profileId build store)) := by
  by_cases resumed : build.resume = true
  · have starts : startBuild codec profileId build store = .ok (some store) := by
      rw [startBuild, if_pos resumed]
    rw [← finished_world_eq profileId build work store store starts]
    apply Leads.head _ (fillings_lead profileId build work build.setterIds store)
    unfold step jobStep
    dsimp only
    rw [if_pos resumed]
  by_cases needs : build.needsArtifact = true
  · cases computed : store.computeInt8ScaleArtifact codec build.setterIds build.dim with
    | error failure =>
      apply Leads.head _ (Leads.refl _)
      unfold step jobStep buildSpace startBuild
      dsimp only
      rw [if_neg resumed, if_pos needs, if_neg resumed, if_pos needs, computed]
      rfl
    | ok outcome =>
      cases outcome with
      | none =>
        apply Leads.head _ (Leads.refl _)
        unfold step jobStep buildSpace startBuild
        dsimp only
        rw [if_neg resumed, if_pos needs, if_neg resumed, if_pos needs, computed]
        rfl
      | some artifact =>
        apply Leads.head _ (starting_leads profileId build (some artifact) work store _)
        · unfold step jobStep
          dsimp only
          rw [if_neg resumed, if_pos needs, computed]
        · rw [startBuild, if_neg resumed, if_pos needs, computed]
          rfl
  · apply Leads.head _ (starting_leads profileId build none work store _)
    · unfold step jobStep
      dsimp only
      rw [if_neg resumed, if_neg needs]
    · rw [startBuild, if_neg resumed, if_neg needs]
      rfl

/-- The builds whose profile is there. -/
def StateSnapshot.located (snapshot : StateSnapshot) (builds : List SpaceBuild) : List (Int × SpaceBuild) :=
  builds.filterMap fun build => (snapshot.byName build.profileName).map fun row => (row.id, build)

theorem builds_lead (snapshot : StateSnapshot) (passes : Nat) (builds : List SpaceBuild) (progress : PassProgress) :
    Leads ids codec config (progress.world passes [] (snapshot.located builds))
      ((builds.foldl (runBuild codec snapshot) progress).world passes [] []) := by
  induction builds generalizing progress with
  | nil => exact Leads.refl _
  | cons first rest ih =>
    rw [List.foldl_cons]
    cases found : snapshot.byName first.profileName with
    | none =>
      have skipped : runBuild codec snapshot progress first = progress := by
        rw [runBuild, found]
      have same : snapshot.located (first :: rest) = snapshot.located rest := by
        rw [StateSnapshot.located, List.filterMap_cons, found]
        rfl
      rw [skipped, same]
      exact ih progress
    | some row =>
      have same : snapshot.located (first :: rest) = (row.id, first) :: snapshot.located rest := by
        rw [StateSnapshot.located, List.filterMap_cons, found]
        rfl
      have built := @building_leads ids codec config row.id first
        ⟨passes, progress.failures, [], snapshot.located rest⟩ progress.store
      rw [same]
      apply Leads.trans built
      have onward := ih (runBuild codec snapshot progress first)
      rw [runBuild, found] at onward ⊢
      dsimp only at onward ⊢
      cases outcome : buildSpace codec row.id first progress.store with
      | mk result after =>
        rw [outcome] at onward
        cases result with
        | error | ok => exact onward

/-- The world that a pass leaves behind. -/
def passedWorld (passes : Nat) : Except ApiError PassOutcome × Store → World
  | (.error _, after) => ⟨.idle, after⟩
  | (.ok outcome, after) => ⟨nextPass outcome.worked passes, after⟩

theorem pass_leads (resolved : resolveDesired config = .ok desired) (passes : Nat) (store : Store) :
    Leads ids codec config ⟨.syncing passes, store⟩
      (passedWorld passes (runReconcilePass ids codec desired store)) := by
  unfold runReconcilePass
  cases synced : store.syncMetadata ids desired with
  | error failure =>
    apply Leads.head _ (Leads.refl _)
    unfold step jobStep
    dsimp only
    rw [resolved]
    dsimp only
    rw [synced]
    rfl
  | ok outcome =>
    obtain ⟨changed, after⟩ := outcome
    have begins : step ids codec ⟨.syncing passes, store⟩ (.work config) =
        ⟨.reading passes changed [.profiles, .coverage, .setters] (.unread desired), after⟩ := by
      unfold step jobStep
      dsimp only
      rw [resolved]
      dsimp only
      rw [synced]
    apply Leads.head begins
    apply (snapshot_read passes changed after).trans
    dsimp only
    by_cases empty : (loadSnapshot after desired).planData.isEmpty = true
    · rw [if_pos empty]
      apply Leads.head _ (Leads.refl _)
      unfold step jobStep
      dsimp only
      rw [if_pos empty]
      rfl
    · rw [if_neg empty]
      have plans : step ids codec ⟨.reading passes changed [] (loadSnapshot after desired), after⟩ (.work config) =
          PassProgress.world ⟨0, ChangeSummary.none, after⟩ passes
            (loadSnapshot after desired).planData.removals
            ((loadSnapshot after desired).located (loadSnapshot after desired).planData.builds) := by
        unfold step jobStep
        dsimp only
        rw [if_neg empty]
        rfl
      apply Leads.head plans
      apply (removals_lead passes _ _ _).trans
      apply (builds_lead (loadSnapshot after desired) passes _ _).trans
      change Leads ids codec config ((runPlan codec (loadSnapshot after desired) after).world passes [] []) _
      unfold PassProgress.world Work.next
      dsimp only
      by_cases failed : 0 < (runPlan codec (loadSnapshot after desired) after).failures
      · rw [if_pos failed, if_pos failed]
        exact Leads.refl _
      · rw [if_neg failed, if_neg failed]
        exact Leads.refl _

theorem passes_lead (resolved : resolveDesired config = .ok desired) (passes : Nat) (total : ChangeSummary)
    (store : Store) : Leads ids codec config ⟨.syncing passes, store⟩
      ⟨.idle, (reconcilePasses ids codec desired (passes + 1) total store).2⟩ := by
  induction passes generalizing total store with
  | zero =>
    apply (pass_leads resolved 0 store).trans
    rw [reconcilePasses]
    cases runReconcilePass ids codec desired store with
    | mk result after =>
      cases result with
      | error failure => exact Leads.refl _
      | ok outcome =>
        dsimp only
        split
        · exact Leads.refl _
        · exact Leads.refl _
  | succ passes ih =>
    apply (pass_leads resolved (passes + 1) store).trans
    rw [reconcilePasses]
    cases runReconcilePass ids codec desired store with
    | mk result after =>
      cases result with
      | error failure => exact Leads.refl _
      | ok outcome =>
        unfold passedWorld nextPass
        dsimp only
        by_cases worked : outcome.worked = true
        · rw [if_pos worked, if_pos worked]
          exact ih _ after
        · rw [if_neg worked, if_neg worked]
          exact Leads.refl _

/-- With nobody between its steps and one configuration to find, the job comes to an end and
leaves the tables as `run_reconcile` does. -/
theorem job_runs_reconcile (resolved : resolveDesired config = .ok desired) (store : Store) :
    ∃ count, run ids codec (.begin :: List.replicate count (.work config)) { store } =
      { phase := .idle, store := (runReconcile ids codec desired store).2 } :=
  @passes_lead ids codec config desired resolved (maxConvergencePasses - 1) ChangeSummary.none store

theorem reconcile_passes_quiet (valid : desired.Valid) (passes : Nat) {total result : ChangeSummary}
    {store final : Store} (sound : store.Sound) (started : passes = 0 → Quiet store desired)
    (passed : reconcilePasses ids codec desired passes total store = (.ok result, final)) :
    Quiet final desired := by
  induction passes generalizing total store with
  | zero =>
    cases passed
    exact started rfl
  | succ passes ih =>
    unfold reconcilePasses at passed
    split at passed
    · cases passed
    · rename_i outcome after isPass
      have quiet := pass_quiet sound valid isPass
      split at passed
      · exact ih quiet.sound (fun _ => quiet) passed
      · cases passed
        exact quiet

/-- Whatever went before, the job that is left alone comes to the end that `run_reconcile` has there,
and without an error the tables are then what the configuration wants. -/
theorem left_alone_converges {store : Store} (sound : store.Sound) (noPairs : store.coverage = [])
    (noCodes : store.quants = []) (events : List Event) (resolved : resolveDesired config = .ok desired) :
    (∃ count, run ids codec (events ++ .cancel :: .begin :: List.replicate count (.work config)) { store } =
      { phase := .idle, store := (runReconcile ids codec desired (run ids codec events { store }).store).2 }) ∧
    ∀ total final, runReconcile ids codec desired (run ids codec events { store }).store = (.ok total, final) →
      Converged final desired := by
  have start : World.Safe codec { store } := ⟨fresh_covering sound noPairs noCodes, trivial⟩
  have reached := (@events_safe ids codec _ start events).covering.sound
  have valid := resolve_desired_valid resolved
  constructor
  · obtain ⟨count, runs⟩ := @passes_lead ids codec config desired resolved (maxConvergencePasses - 1)
      ChangeSummary.none (run ids codec events { store }).store
    refine ⟨count, ?_⟩
    rw [run, List.foldl_append]
    exact runs
  · intro total final succeeds
    have quiet := reconcile_passes_quiet valid _ reached (fun none => absurd none (by decide)) succeeds
    exact quiet.converged valid

end Alone

theorem renamed_job_runs : ∃ count,
    run RowIds.largest zeroCodec (.begin :: List.replicate count (.work renamedConfig)) { store := renamedStore } =
      { phase := .idle, store := (runReconcile RowIds.largest zeroCodec renamedDesired renamedStore).2 } :=
  job_runs_reconcile (by decide +kernel) renamedStore

/-- The job is interrupted once it has written a code, and another profile is wanted for a while. -/
def brokenOff : List Event :=
  .begin :: List.replicate 7 (.work renamedConfig) ++ [.deleteItemData fun row => row.id ≠ 3] ++
    List.replicate 3 (.work renamedConfig) ++
      [.interrupt, .commit { default := some "b".toList, profiles := [⟨"b".toList, quantizerInt8⟩] }]

theorem broken_off_converges : ∃ final, Converged final renamedDesired ∧ ∃ count,
    run RowIds.largest zeroCodec (brokenOff ++ .cancel :: .begin :: List.replicate count (.work renamedConfig))
      { store := crowdedStore artifactMinVectors } = { phase := .idle, store := final } := by
  have succeeds : (runReconcile RowIds.largest zeroCodec renamedDesired
      (run RowIds.largest zeroCodec brokenOff { store := crowdedStore artifactMinVectors }).store).1 =
        .ok ChangeSummary.none := by
    decide +kernel
  obtain ⟨runs, converges⟩ := @left_alone_converges RowIds.largest zeroCodec renamedConfig renamedDesired _
    (crowded_store_sound artifactMinVectors) rfl rfl brokenOff (by decide +kernel)
  generalize reconciled : runReconcile _ _ _ _ = result at succeeds runs converges
  obtain ⟨outcome, final⟩ := result
  cases succeeds
  exact ⟨final, converges _ final rfl, runs⟩

end Panoptikon.VectorQuants
