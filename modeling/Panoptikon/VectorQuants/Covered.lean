import Panoptikon.VectorQuants.Builds
import Panoptikon.VectorQuants.Syncing

/-!
# What a ready pair covers

Every vector of a ready pair's setter has a code of the pair's revision, made with the
pair's scale. A build only counts a pair as ready when that holds, and from the freeze of
its artifact on each new vector brings its code along. Everything else that is written
either leaves the pair alone or takes it back to pending.
-/

namespace Panoptikon.VectorQuants

open Foundation

/-- What a pair keeps that is marked for a rebuild. -/
def markPending (pair : CoverageRow) : CoverageRow :=
  { pair with state := .pending, artifact := none, nAtArtifact := none }

/-- The scale that the pair's artifact holds. -/
def CoverageRow.scale (codec : Int8Codec) (pair : CoverageRow) : Option codec.Scale :=
  pair.artifact.bind codec.artifactScale

namespace Store

def markSpaceRebuild (profileId : Int) (setterIds : List Int) (store : Store) : Except ApiError Store :=
  setterIds.foldlM (fun reached setterId =>
    if (reached.pair profileId setterId).isNone then
      .error (.badRequest "This profile has no coverage for that setter yet; run a reconcile first.")
    else .ok (reached.updatePair profileId setterId markPending)) store

def activeProfile (store : Store) (profileId : Int) : Bool :=
  store.profiles.any fun row => row.id = profileId && row.state = .active

/-- The pairs that the vector is quantized for as it is stored. -/
def inlinePairs (store : Store) (vector : VectorRow) : List CoverageRow :=
  store.coverage.filter fun pair => pair.setterId = vector.setterId && store.activeProfile pair.profileId &&
    pair.state ≠ .pending && pair.artifact.isSome

/-- A vector of another length, or an artifact that is no scale, is passed by. -/
def writeInlineQuant (codec : Int8Codec) (vector : VectorRow) (store : Store) (pair : CoverageRow) : Store :=
  if pair.dim.map (· * 4) ≠ some (vector.embedding.length : Int) then store
  else
    match pair.scale codec with
    | none => store
    | some scale => store.upsertQuant
        { id := vector.id, profileId := pair.profileId, rev := pair.artifactRev,
          quant := codec.quantizeInt8 vector.embedding scale }

def mismatches (vector : VectorRow) (pair : CoverageRow) : Bool :=
  pair.state ≠ .pending && pair.setterId = vector.setterId &&
    pair.dim.any fun dim => (vector.embedding.length : Int) ≠ dim * 4

/-- The pairs whose vectors have another length go back to pending. -/
def downgrade (vector : VectorRow) (store : Store) : Store :=
  { store with coverage := updateWhere (mismatches vector) markPending store.coverage }

def writeInlineQuants (codec : Int8Codec) (vector : VectorRow) (store : Store) : Store :=
  ((store.inlinePairs vector).foldl (writeInlineQuant codec vector) store).downgrade vector

/-- `add_embedding`, with the row of `item_data` that it is for. -/
def addEmbedding (codec : Int8Codec) (vector : VectorRow) (store : Store) : Except ApiError Store :=
  if (store.vectors.any fun row => row.id = vector.id) ||
      !(store.setters.any fun row => row.id = vector.setterId) then .error writeErr
  else .ok ({ store with vectors := store.vectors ++ [vector] }.writeInlineQuants codec vector)

/-- Deleted rows of `item_data`, with what goes with them. -/
def deleteItemData (chosen : VectorRow → Bool) (store : Store) : Store :=
  { store with
    vectors := store.vectors.filter fun row => !chosen row
    quants := store.quants.filter fun quant =>
      !store.vectors.any fun row => chosen row && row.id = quant.id }

/-- `DELETE FROM setters WHERE name = ?`, with its cascades. -/
def deleteSetterByName (name : Text) (store : Store) : Store :=
  let gone := fun (setterId : Int) => store.setters.any fun row => row.name = name && row.id = setterId
  let left := store.deleteItemData fun row => gone row.setterId
  { left with
    setters := store.setters.filter fun row => row.name ≠ name
    coverage := store.coverage.filter fun pair => !gone pair.setterId }

def addSetter (row : SetterRow) (store : Store) : Except ApiError Store :=
  if store.setters.any fun other => other.id = row.id || other.name = row.name then .error writeErr
  else .ok { store with setters := store.setters ++ [row] }

end Store

open Store

/-- The profile may be searched by. -/
def Active (store : Store) (profileId : Int) : Prop :=
  ∃ row ∈ store.profiles, row.id = profileId ∧ row.state = .active

/-- The vector has as many components as the pair's artifact was made for. -/
def CoverageRow.Fits (pair : CoverageRow) (vector : VectorRow) : Prop :=
  pair.dim.map (· * 4) = some (vector.embedding.length : Int)

/-- The codes of the pairs, where a vector may still wait for its own. -/
structure Covering (codec : Int8Codec) (Waits : VectorRow → Prop) (store : Store) : Prop where
  sound : store.Sound
  /-- A code belongs to a pair, which has not been at a revision before the code's. -/
  revised : ∀ quant ∈ store.quants, ∀ vector ∈ store.vectors, vector.id = quant.id →
    ∃ pair ∈ store.coverage, pair.key = (quant.profileId, vector.setterId) ∧ quant.rev ≤ pair.artifactRev
  /-- A code of the revision is the vector's under the scale, and the vector has the length. -/
  coded : ∀ quant ∈ store.quants, ∀ vector ∈ store.vectors, vector.id = quant.id →
    ∀ pair ∈ store.coverage, pair.key = (quant.profileId, vector.setterId) → pair.state ≠ .pending →
      quant.rev = pair.artifactRev → pair.Fits vector ∧
        ∃ scale, pair.scale codec = some scale ∧ quant.quant = codec.quantizeInt8 vector.embedding scale
  covered : ∀ pair ∈ store.coverage, pair.state = .ready → Active store pair.profileId →
    pair.dim.isSome = true → (pair.scale codec).isSome = true →
      ∀ vector ∈ store.vectors, vector.setterId = pair.setterId → ¬Waits vector →
        store.quantized pair vector = true

/-- No pair of the profile is past pending while it may be searched by. -/
def Removable (store : Store) (profileId : Int) : Prop :=
  ∀ pair ∈ store.coverage, pair.profileId = profileId → pair.state ≠ .pending → ¬Active store profileId

/-- Pairs only go back, and profiles whose pairs have not gone back have been active. -/
def Calms (before after : Store) : Prop :=
  ∀ pair ∈ after.coverage, pair.state ≠ .pending → pair ∈ before.coverage ∧
    ∀ row ∈ after.profiles, row.id = pair.profileId → row.state = .active →
      ∃ old ∈ before.profiles, old.id = row.id ∧ old.state = .active ∧ old.name = row.name

/-- Rows go, pairs go back, and the codes of pairs that have not gone back stay. -/
structure Resets (before after : Store) : Prop where
  sound : before.Sound → after.Sound
  vectors : after.vectors ⊆ before.vectors
  quants : after.quants ⊆ before.quants
  calms : Calms before after
  revs : ∀ quant ∈ after.quants, ∀ vector ∈ after.vectors, vector.id = quant.id → ∀ pair ∈ before.coverage,
    pair.key = (quant.profileId, vector.setterId) →
      ∃ still ∈ after.coverage, still.key = pair.key ∧ still.artifactRev = pair.artifactRev
  codes : ∀ pair ∈ after.coverage, pair.state ≠ .pending → Active after pair.profileId →
    ∀ quant ∈ before.quants, quant.profileId = pair.profileId → ∀ vector ∈ after.vectors,
      vector.id = quant.id → quant ∈ after.quants

variable {pair : CoverageRow}

theorem begun_of_ready (ready : pair.state = .ready) : pair.state ≠ .pending := by
  rw [ready]
  exact PairState.noConfusion

section Moves

variable {codec : Int8Codec} {Waits : VectorRow → Prop} {before after last : Store}

theorem Calms.active (calms : Calms before after) (member : pair ∈ after.coverage)
    (begun : pair.state ≠ .pending) (active : Active after pair.profileId) : Active before pair.profileId := by
  obtain ⟨row, isRow, isProfile, isActive⟩ := active
  obtain ⟨old, isOld, sameId, oldActive, -⟩ := (calms pair member begun).2 row isRow isProfile isActive
  exact ⟨old, isOld, sameId.trans isProfile, oldActive⟩

theorem Calms.trans (former : Calms before after) (latter : Calms after last) : Calms before last := by
  intro pair member begun
  obtain ⟨between, named⟩ := latter pair member begun
  obtain ⟨first, firstNamed⟩ := former pair between begun
  refine ⟨first, fun row isRow isProfile isActive => ?_⟩
  obtain ⟨middle, isMiddle, sameId, middleActive, sameName⟩ := named row isRow isProfile isActive
  obtain ⟨old, isOld, oldId, oldActive, oldName⟩ :=
    firstNamed middle isMiddle (sameId.trans isProfile) middleActive
  exact ⟨old, isOld, oldId.trans sameId, oldActive, oldName.trans sameName⟩

theorem Removable.calm {profileId : Int} (removable : Removable before profileId) (calms : Calms before after) :
    Removable after profileId := by
  intro pair member isProfile begun active
  rw [← isProfile] at active removable
  exact removable pair (calms pair member begun).1 rfl begun (calms.active member begun active)

/-- Profiles are as active as before when none is added or changed. -/
theorem Calms.of_subset (profiles : after.profiles ⊆ before.profiles)
    (pairs : ∀ pair ∈ after.coverage, pair.state ≠ .pending → pair ∈ before.coverage) : Calms before after :=
  fun pair member begun =>
    ⟨pairs pair member begun, fun row isRow _ isActive => ⟨row, profiles isRow, rfl, isActive, rfl⟩⟩

theorem Resets.of_pairs (sound : before.Sound → after.Sound) (vectors : after.vectors = before.vectors)
    (quants : after.quants = before.quants) (calms : Calms before after)
    (revs : ∀ pair ∈ before.coverage, ∃ still ∈ after.coverage,
      still.key = pair.key ∧ still.artifactRev = pair.artifactRev) : Resets before after where
  sound := sound
  vectors := vectors ▸ List.Subset.refl _
  quants := quants ▸ List.Subset.refl _
  calms := calms
  revs := fun _ _ _ _ _ pair member _ => revs pair member
  codes := fun _ _ _ _ _ member _ _ _ _ => quants ▸ member

theorem Resets.refl (store : Store) : Resets store store :=
  .of_pairs id rfl rfl (.of_subset (List.Subset.refl _) fun _ member _ => member)
    fun pair member => ⟨pair, member, rfl, rfl⟩

theorem Resets.trans (former : Resets before after) (latter : Resets after last) : Resets before last where
  sound := fun sound => latter.sound (former.sound sound)
  vectors := List.Subset.trans latter.vectors former.vectors
  quants := List.Subset.trans latter.quants former.quants
  calms := former.calms.trans latter.calms
  revs := by
    intro quant isQuant vector isVector same pair member isPair
    obtain ⟨middle, isMiddle, sameKey, sameRev⟩ := former.revs quant (latter.quants isQuant) vector
      (latter.vectors isVector) same pair member isPair
    obtain ⟨still, isStill, stillKey, stillRev⟩ := latter.revs quant isQuant vector isVector same middle isMiddle
      (sameKey.trans isPair)
    exact ⟨still, isStill, stillKey.trans sameKey, stillRev.trans sameRev⟩
  codes := by
    intro pair member begun active quant isQuant isProfile vector isVector same
    have between := former.codes pair (latter.calms pair member begun).1 begun
      (latter.calms.active member begun active) quant isQuant isProfile vector (latter.vectors isVector) same
    exact latter.codes pair member begun active quant between isProfile vector isVector same

theorem Store.Sound.pair_unique {store : Store} (sound : store.Sound) {left right : CoverageRow}
    (isLeft : left ∈ store.coverage) (isRight : right ∈ store.coverage) (same : left.key = right.key) :
    left = right := List.inj_on_of_nodup_map sound.pairs isLeft isRight same

theorem quantized_iff {store : Store} {vector : VectorRow} :
    store.quantized pair vector = true ↔ ∃ quant ∈ store.quants,
      quant.key = (vector.id, pair.profileId) ∧ quant.rev = pair.artifactRev := by
  rw [quantized, List.any_eq_true]
  simp only [Bool.and_eq_true, decide_eq_true_iff]

theorem Covering.reset (covering : Covering codec Waits before) (resets : Resets before after) :
    Covering codec Waits after where
  sound := resets.sound covering.sound
  revised := by
    intro quant isQuant vector isVector same
    obtain ⟨pair, isPair, keyed, bounded⟩ := covering.revised quant (resets.quants isQuant) vector
      (resets.vectors isVector) same
    obtain ⟨still, isStill, sameKey, sameRev⟩ := resets.revs quant isQuant vector isVector same pair isPair keyed
    exact ⟨still, isStill, sameKey.trans keyed, sameRev ▸ bounded⟩
  coded := by
    intro quant isQuant vector isVector same pair isPair keyed begun ofRev
    exact covering.coded quant (resets.quants isQuant) vector (resets.vectors isVector) same pair
      (resets.calms pair isPair begun).1 keyed begun ofRev
  covered := by
    intro pair isPair ready active sized scaled vector isVector ofSetter here
    have begun := begun_of_ready ready
    have held := covering.covered pair (resets.calms pair isPair begun).1 ready
      (resets.calms.active isPair begun active) sized scaled vector (resets.vectors isVector) ofSetter here
    obtain ⟨quant, isQuant, keyed, ofRev⟩ := quantized_iff.mp held
    have isVectors : vector.id = quant.id := (congrArg Prod.fst keyed).symm
    have ofProfile : quant.profileId = pair.profileId := congrArg Prod.snd keyed
    exact quantized_iff.mpr ⟨quant, resets.codes pair isPair begun active quant isQuant ofProfile vector
      isVector isVectors, keyed, ofRev⟩

end Moves

theorem keys_append_unused {Row Key : Type} {key : Row → Key} {rows : List Row} {added : Row}
    (distinct : (rows.map key).Nodup) (unused : ∀ row ∈ rows, key row ≠ key added) :
    ((rows ++ [added]).map key).Nodup := by
  rw [List.map_append, List.nodup_append]
  refine ⟨distinct, List.nodup_singleton _, ?_⟩
  intro old isOld new isNew same
  obtain ⟨row, isRow, rfl⟩ := List.mem_map.mp isOld
  exact unused row isRow (same.trans (List.mem_singleton.mp isNew))

section Resetting

variable {store after : Store}

theorem updated_revs (chosen : CoverageRow → Bool) {change : CoverageRow → CoverageRow}
    (sameKey : ∀ pair, (change pair).key = pair.key)
    (sameRev : ∀ pair, (change pair).artifactRev = pair.artifactRev) (pair : CoverageRow)
    (member : pair ∈ store.coverage) : ∃ still ∈ updateWhere chosen change store.coverage,
      still.key = pair.key ∧ still.artifactRev = pair.artifactRev := by
  refine ⟨if chosen pair then change pair else pair, mem_update.mpr ⟨pair, member, rfl⟩, ?_⟩
  split
  · exact ⟨sameKey pair, sameRev pair⟩
  · exact ⟨rfl, rfl⟩

theorem pending_resets (chosen : CoverageRow → Bool) {change : CoverageRow → CoverageRow}
    (sameKey : ∀ pair, (change pair).key = pair.key)
    (sameRev : ∀ pair, (change pair).artifactRev = pair.artifactRev)
    (back : ∀ pair, (change pair).state = .pending) :
    Resets store { store with coverage := updateWhere chosen change store.coverage } := by
  refine Resets.of_pairs (fun sound => sound.update_pairs chosen change sameKey) rfl rfl ?_
    (updated_revs chosen sameKey sameRev)
  · refine Calms.of_subset (List.Subset.refl _) ?_
    intro pair member begun
    obtain ⟨old, isOld, same⟩ := mem_update.mp member
    split at same
    · exact absurd (same ▸ back old) begun
    · exact same ▸ isOld

variable {needsArtifact : Bool}

theorem insert_pair_resets {profileId setterId : Int} (sound : store.Sound)
    (inserted : store.insertPair profileId setterId needsArtifact = .ok after) : Resets store after := by
  rw [insertPair] at inserted
  split at inserted
  · cases inserted
    exact Resets.refl _
  rename_i absent
  split at inserted
  · rename_i known
    cases inserted
    rw [Bool.and_eq_true, List.any_eq_true, List.any_eq_true] at known
    obtain ⟨⟨profile, isProfile, profileIs⟩, setter, isSetter, setterIs⟩ := known
    refine Resets.of_pairs (fun _ => ?_) rfl rfl (Calms.of_subset (List.Subset.refl _) ?_)
      fun pair member => ⟨pair, List.mem_append_left _ member, rfl, rfl⟩
    · apply sound.add_pair
      · intro held
        exact absent (Option.isSome_iff_ne_none.mpr fun none_ => row_with_eq_none.mp none_ held)
      · exact List.mem_map.mpr ⟨profile, isProfile, of_decide_eq_true profileIs⟩
      · exact List.mem_map.mpr ⟨setter, isSetter, of_decide_eq_true setterIs⟩
    · intro pair member begun
      rcases List.mem_append.mp member with old | new
      · exact old
      · rw [List.mem_singleton.mp new] at begun
        exact absurd rfl begun
  · cases inserted

variable {setterIds : List Int}

theorem create_coverage_resets {profileId : Int}
    (sound : store.Sound) (created : createCoverageRows profileId setterIds needsArtifact store = .ok after) :
    Resets store after := by
  rw [createCoverageRows] at created
  induction setterIds generalizing store with
  | nil =>
    cases created
    exact Resets.refl _
  | cons first rest ih =>
    rw [List.foldlM_cons] at created
    obtain ⟨next, one, others⟩ := bind_ok created
    have former := insert_pair_resets sound one
    exact former.trans (ih (former.sound sound) others)

theorem profiles_reset (chosen : ProfileRow → Bool) {change : ProfileRow → ProfileRow}
    (sameId : ∀ row, (change row).id = row.id) (sameName : ∀ row, (change row).name = row.name)
    (fewer : ∀ row, (change row).state = .active → row.state = .active) :
    Resets store { store with profiles := updateWhere chosen change store.profiles } := by
  refine Resets.of_pairs (fun sound => sound.update_profiles chosen change sameId sameName) rfl rfl ?_
    fun pair member => ⟨pair, member, rfl, rfl⟩
  intro pair member _
  refine ⟨member, fun row isRow _ isActive => ?_⟩
  obtain ⟨old, isOld, same⟩ := mem_update.mp isRow
  split at same
  · subst same
    exact ⟨old, isOld, (sameId old).symm, fewer old isActive, (sameName old).symm⟩
  · subst same
    exact ⟨row, isOld, rfl, isActive, rfl⟩

theorem delete_profiles_resets (chosen : ProfileRow → Bool) : Resets store (store.deleteProfiles chosen) where
  sound := fun sound => sound.delete_profiles chosen
  vectors := List.Subset.refl _
  quants := List.filter_sublist.subset
  calms := .of_subset List.filter_sublist.subset fun _ member _ => (List.mem_filter.mp member).1
  revs := by
    intro quant isQuant vector _ _ pair member keyed
    have stays := (List.mem_filter.mp isQuant).2
    have ofProfile : pair.profileId = quant.profileId := congrArg Prod.fst keyed
    exact ⟨pair, List.mem_filter.mpr ⟨member, by rwa [ofProfile]⟩, rfl, rfl⟩
  codes := by
    intro pair member _ _ quant isQuant ofProfile vector _ _
    have stays := (List.mem_filter.mp member).2
    exact List.mem_filter.mpr ⟨isQuant, by rwa [ofProfile]⟩

section

variable (sound : store.Sound)

include sound

theorem add_profile_resets (ids : RowIds) {added : ProfileRow}
    (isNew : added.id = ids.next (store.profiles.map ProfileRow.id))
    (unnamed : added.name ∉ store.profiles.map ProfileRow.name) :
    Resets store { store with profiles := store.profiles ++ [added] } := by
  refine Resets.of_pairs (fun _ => sound.add_profile ids isNew unnamed) rfl rfl ?_
    fun pair member => ⟨pair, member, rfl, rfl⟩
  intro pair member _
  refine ⟨member, fun row isRow isProfile isActive => ?_⟩
  rcases List.mem_append.mp isRow with old | new
  · exact ⟨row, old, rfl, isActive, rfl⟩
  · have known := sound.pairProfiles pair member
    rw [← isProfile, List.mem_singleton.mp new, isNew] at known
    exact absurd known (ids.unused _)

/-- A profile that is wanted again or otherwise has its pairs taken back. -/
theorem recipe_resets {name quantizer options : Text} {row : ProfileRow} (isRow : store.named name = some row) :
    Resets store ((store.updateNamed name (setRecipe quantizer options)).resetPairs row.id needsArtifact) := by
  refine Resets.of_pairs (fun _ => ?_) rfl rfl ?_ (updated_revs _ (fun _ => rfl) fun _ => rfl)
  · exact (sound.update_profiles (fun row => row.name = name) (setRecipe quantizer options) (fun _ => rfl)
      fun _ => rfl).update_pairs (fun pair => pair.profileId = row.id) (resetPair needsArtifact) fun _ => rfl
  · intro pair member begun
    obtain ⟨old, isOld, same⟩ := mem_update.mp member
    split at same
    · rw [same] at begun
      exact absurd rfl begun
    · rename_i other
      subst same
      refine ⟨isOld, fun found isFound isProfile isActive => ?_⟩
      obtain ⟨was, isWas, changed⟩ := mem_update.mp isFound
      split at changed
      · rename_i named
        have sameRow : row = was := Option.some.inj (isRow.symm.trans
          (sound.named_iff.mpr ⟨isWas, of_decide_eq_true named⟩))
        have ofRow : pair.profileId = row.id := by
          rw [sameRow, ← isProfile, changed]
          rfl
        exact absurd (decide_eq_true ofRow) other
      · subst changed
        exact ⟨found, isWas, rfl, isActive, rfl⟩

theorem delete_item_data_resets (chosen : VectorRow → Bool) : Resets store (store.deleteItemData chosen) where
  sound := by
    intro _
    exact {
      setterIds := sound.setterIds
      setterNames := sound.setterNames
      vectorIds := sound.vectorIds.sublist (List.filter_sublist.map VectorRow.id)
      profileIds := sound.profileIds
      profileNames := sound.profileNames
      pairs := sound.pairs
      codes := sound.codes.sublist (List.filter_sublist.map QuantRow.key)
      vectorSetters := sound.vectorSetters.of_subset List.filter_sublist.subset
      pairProfiles := sound.pairProfiles
      pairSetters := sound.pairSetters
      codeProfiles := sound.codeProfiles.of_subset List.filter_sublist.subset
      codeVectors := by
        apply (sound.codeVectors.of_subset List.filter_sublist.subset).filter_parents
        intro quant isQuant vector isVector same
        have stays := (List.mem_filter.mp isQuant).2
        rw [Bool.not_eq_true', List.any_eq_false] at stays
        have unchosen := stays vector isVector
        rw [same, decide_eq_true rfl, Bool.and_true] at unchosen
        rw [Bool.not_eq_true', ← Bool.not_eq_true]
        exact unchosen }
  vectors := List.filter_sublist.subset
  quants := List.filter_sublist.subset
  calms := .of_subset (List.Subset.refl _) fun _ member _ => member
  revs := fun _ _ _ _ _ pair member _ => ⟨pair, member, rfl, rfl⟩
  codes := by
    intro pair _ _ _ quant isQuant _ vector isVector same
    obtain ⟨known, unchosen⟩ := List.mem_filter.mp isVector
    apply List.mem_filter.mpr ⟨isQuant, _⟩
    rw [Bool.not_eq_true', List.any_eq_false]
    intro other isOther gone
    rw [Bool.and_eq_true, decide_eq_true_iff, ← same] at gone
    have sameRow : other = vector := List.inj_on_of_nodup_map sound.vectorIds isOther known gone.2
    rw [← sameRow, gone.1] at unchosen
    cases unchosen

theorem delete_setter_resets (name : Text) : Resets store (store.deleteSetterByName name) := by
  let gone := fun (setterId : Int) => store.setters.any fun row => row.name = name && row.id = setterId
  have former : Resets store (store.deleteItemData fun row => gone row.setterId) :=
    delete_item_data_resets sound _
  have stays : ∀ row ∈ store.setters, (!gone row.id) = true → decide (row.name ≠ name) = true := by
    intro row member kept
    rw [Bool.not_eq_true', List.any_eq_false] at kept
    have unchosen := kept row member
    rw [decide_eq_true (rfl : row.id = row.id), Bool.and_true, decide_eq_true_iff] at unchosen
    exact decide_eq_true unchosen
  have latter : Resets (store.deleteItemData fun row => gone row.setterId) (store.deleteSetterByName name) := {
    sound := by
      intro left
      exact {
        setterIds := sound.setterIds.sublist (List.filter_sublist.map SetterRow.id)
        setterNames := sound.setterNames.sublist (List.filter_sublist.map SetterRow.name)
        vectorIds := left.vectorIds
        profileIds := left.profileIds
        profileNames := left.profileNames
        pairs := left.pairs.sublist (List.filter_sublist.map CoverageRow.key)
        codes := left.codes
        vectorSetters := by
          apply left.vectorSetters.filter_parents
          intro vector isVector row isRow same
          exact stays row isRow (same ▸ (List.mem_filter.mp isVector).2)
        pairProfiles := left.pairProfiles.of_subset List.filter_sublist.subset
        pairSetters := by
          apply (left.pairSetters.of_subset List.filter_sublist.subset).filter_parents
          intro pair isPair row isRow same
          exact stays row isRow (same ▸ (List.mem_filter.mp isPair).2)
        codeProfiles := left.codeProfiles
        codeVectors := left.codeVectors }
    vectors := List.Subset.refl _
    quants := List.Subset.refl _
    calms := .of_subset (List.Subset.refl _) fun _ member _ => (List.mem_filter.mp member).1
    revs := by
      intro quant _ vector isVector _ pair member keyed
      have kept := (List.mem_filter.mp isVector).2
      have ofSetter : pair.setterId = vector.setterId := congrArg Prod.snd keyed
      exact ⟨pair, List.mem_filter.mpr ⟨member, by rwa [ofSetter]⟩, rfl, rfl⟩
    codes := fun _ _ _ _ _ member _ _ _ _ => member }
  exact former.trans latter

theorem add_setter_resets {row : SetterRow} (added : store.addSetter row = .ok after) : Resets store after := by
  rw [addSetter] at added
  split at added
  · cases added
  rename_i unused
  cases added
  rw [Bool.not_eq_true, List.any_eq_false] at unused
  have free : ∀ other ∈ store.setters, ¬other.id = row.id ∧ ¬other.name = row.name := by
    intro other member
    have apart := unused other member
    rw [Bool.or_eq_true, decide_eq_true_iff, decide_eq_true_iff, not_or] at apart
    exact apart
  refine Resets.of_pairs (fun _ => ?_) rfl rfl
    (Calms.of_subset (List.Subset.refl _) fun _ member _ => member) fun pair member => ⟨pair, member, rfl, rfl⟩
  exact {
    setterIds := keys_append_unused sound.setterIds fun other member => (free other member).1
    setterNames := keys_append_unused sound.setterNames fun other member => (free other member).2
    vectorIds := sound.vectorIds
    profileIds := sound.profileIds
    profileNames := sound.profileNames
    pairs := sound.pairs
    codes := sound.codes
    vectorSetters := sound.vectorSetters.append_parents [row]
    pairProfiles := sound.pairProfiles
    pairSetters := sound.pairSetters.append_parents [row]
    codeProfiles := sound.codeProfiles
    codeVectors := sound.codeVectors }

end

theorem mark_rebuild_resets {profileId : Int}
    (marked : store.markSpaceRebuild profileId setterIds = .ok after) : Resets store after := by
  rw [markSpaceRebuild] at marked
  induction setterIds generalizing store with
  | nil =>
    cases marked
    exact Resets.refl _
  | cons first rest ih =>
    rw [List.foldlM_cons] at marked
    obtain ⟨next, one, others⟩ := bind_ok marked
    split at one
    · cases one
    · cases one
      have former : Resets store (store.updatePair profileId first markPending) :=
        pending_resets _ (fun _ => rfl) (fun _ => rfl) fun _ => rfl
      exact former.trans (ih others)

variable {ids : RowIds}

theorem apply_op_resets {operation : MetaOp} (sound : store.Sound)
    (applied : store.applyOp ids setterIds operation = .ok after) : Resets store after := by
  have reset {name quantizer options : Text} {needsArtifact : Bool}
      (applied : store.resetProfile setterIds name quantizer options needsArtifact = .ok after) :
      Resets store after := by
    unfold resetProfile at applied
    split at applied
    · cases applied
    · rename_i row isRow
      have former : Resets store
          ((store.updateNamed name (setRecipe quantizer options)).resetPairs row.id needsArtifact) :=
        recipe_resets sound isRow
      exact former.trans (create_coverage_resets (former.sound sound) applied)
  cases operation with
  | createProfile name quantizer options needsArtifact =>
    change store.createProfile ids setterIds name quantizer options needsArtifact = .ok after at applied
    unfold createProfile at applied
    split at applied
    · cases applied
    · rename_i absent
      have unnamed : name ∉ store.profiles.map ProfileRow.name :=
        fun held => absent (Option.isSome_iff_ne_none.mpr fun none_ => row_with_eq_none.mp none_ held)
      have former := @add_profile_resets store sound ids
        ⟨ids.next (store.profiles.map ProfileRow.id), name, quantizer, some options, .active, false⟩ rfl unnamed
      exact former.trans (create_coverage_resets (former.sound sound) applied)
  | updateRecipe | reactivate => exact reset applied
  | markRemoving name =>
    cases applied
    exact profiles_reset _ (fun _ => rfl) (fun _ => rfl) fun _ impossible => by cases impossible
  | dropEmptyProfile name =>
    cases applied
    exact delete_profiles_resets _
  | setDefaultFlags =>
    cases applied
    exact Resets.refl _
  | createCoverage name setterId needsArtifact =>
    change store.createCoverage name setterId needsArtifact = .ok after at applied
    unfold createCoverage at applied
    split at applied
    · cases applied
      exact Resets.refl _
    · exact insert_pair_resets sound applied

theorem apply_ops_reset {operations : List MetaOp} (sound : store.Sound)
    (applied : operations.foldlM (applyOp ids setterIds) store = .ok after) : Resets store after := by
  induction operations generalizing store with
  | nil =>
    cases applied
    exact Resets.refl _
  | cons first rest ih =>
    rw [List.foldlM_cons] at applied
    obtain ⟨next, one, others⟩ := bind_ok applied
    have former := apply_op_resets sound one
    exact former.trans (ih (former.sound sound) others)

theorem sync_metadata_resets {desired : DesiredState} {changed : Bool} (sound : store.Sound)
    (synced : store.syncMetadata ids desired = .ok (changed, after)) : Resets store after := by
  unfold syncMetadata at synced
  dsimp only at synced
  split at synced
  · cases synced
    exact Resets.refl _
  · obtain ⟨applied, operations, flagged⟩ := bind_ok synced
    cases flagged
    exact (apply_ops_reset sound operations).trans
      (profiles_reset _ (fun _ => rfl) (fun _ => rfl) fun _ active => active)

end Resetting

section Building

variable {codec : Int8Codec} {Waits : VectorRow → Prop} {store after : Store} {profileId setterId : Int}

/-- Freezing a pair at a revision that it has not been at leaves no code of that revision. -/
theorem freeze_covering (covering : Covering codec Waits store) {artifact : Option Blob} {rev dim : Int}
    (later : ∀ pair ∈ store.coverage, pair.key = (profileId, setterId) →
      pair.artifactRev < rev ∨ freeze artifact rev dim pair = pair) :
    Covering codec Waits (store.updatePair profileId setterId (freeze artifact rev dim)) where
  sound := covering.sound.update_pairs _ _ fun _ => rfl
  revised := by
    intro quant isQuant vector isVector same
    obtain ⟨pair, isPair, keyed, bounded⟩ := covering.revised quant isQuant vector isVector same
    refine ⟨_, mem_update.mpr ⟨pair, isPair, rfl⟩, ?_⟩
    split
    · rename_i chosen
      refine ⟨keyed, ?_⟩
      rcases later pair isPair (of_decide_eq_true chosen) with before | already
      · exact le_trans bounded (le_of_lt before)
      · rwa [already]
    · exact ⟨keyed, bounded⟩
  coded := by
    intro quant isQuant vector isVector same pair isPair keyed begun ofRev
    obtain ⟨old, isOld, changed⟩ := mem_update.mp isPair
    split at changed
    · rename_i chosen
      rcases later old isOld (of_decide_eq_true chosen) with before | already
      · obtain ⟨owner, isOwner, ownerKeyed, bounded⟩ := covering.revised quant isQuant vector isVector same
        have keyedOld : old.key = (quant.profileId, vector.setterId) := by rwa [changed] at keyed
        have sameOwner : owner = old :=
          covering.sound.pair_unique isOwner isOld (ownerKeyed.trans keyedOld.symm)
        have isRev : quant.rev = rev := ofRev.trans (by rw [changed]; rfl)
        rw [sameOwner, isRev] at bounded
        exact absurd (lt_of_lt_of_le before bounded) (lt_irrefl _)
      · rw [already] at changed
        subst changed
        exact covering.coded quant isQuant vector isVector same pair isOld keyed begun ofRev
    · subst changed
      exact covering.coded quant isQuant vector isVector same pair isOld keyed begun ofRev
  covered := by
    intro pair isPair ready active sized scaled vector isVector ofSetter here
    obtain ⟨old, isOld, changed⟩ := mem_update.mp isPair
    split at changed
    · rw [changed] at ready
      cases ready
    · subst changed
      exact covering.covered pair isOld ready active sized scaled vector isVector ofSetter here

theorem max_rev_bounds {setterIds : List Int} {least highest : Int}
    (found : setterIds.foldlM (fun highest setterId =>
      match store.pair profileId setterId with
      | none => Except.error writeErr
      | some pair => .ok (max highest pair.artifactRev)) least = .ok highest) :
    least ≤ highest ∧ ∀ setterId ∈ setterIds, ∀ pair, store.pair profileId setterId = some pair →
      pair.artifactRev ≤ highest := by
  induction setterIds generalizing least with
  | nil =>
    cases found
    exact ⟨le_rfl, nofun⟩
  | cons first rest ih =>
    rw [List.foldlM_cons] at found
    obtain ⟨next, one, others⟩ := bind_ok found
    obtain ⟨bounded, rest⟩ := ih others
    split at one
    · cases one
    · rename_i pair isPair
      cases one
      refine ⟨le_trans (le_max_left _ _) bounded, fun setterId member other isOther => ?_⟩
      rcases List.mem_cons.mp member with rfl | later
      · cases isPair.symm.trans isOther
        exact le_trans (le_max_right _ _) bounded
      · exact rest setterId later other isOther

theorem start_covering (covering : Covering codec Waits store) {setterIds : List Int}
    {artifact : Option Blob} {rev dim : Int}
    (started : store.startSpaceBuild profileId setterIds artifact dim = .ok (rev, after)) :
    Covering codec Waits after := by
  obtain ⟨highest, found, rest⟩ := bind_ok started
  obtain ⟨reached, updates, same⟩ := bind_ok rest
  cases same
  have bounds := (max_rev_bounds found).2
  have later : ∀ setterId ∈ setterIds, ∀ pair ∈ store.coverage, pair.key = (profileId, setterId) →
      pair.artifactRev < highest + 1 ∨ freeze artifact (highest + 1) dim pair = pair := by
    intro setterId member pair isPair keyed
    exact Or.inl (Int.lt_add_one_of_le (bounds setterId member pair
      (covering.sound.pair_iff.mpr ⟨isPair, keyed⟩)))
  clear bounds found started rest
  induction setterIds generalizing store with
  | nil =>
    cases updates
    exact covering
  | cons first rest ih =>
    rw [List.foldlM_cons] at updates
    obtain ⟨next, one, others⟩ := bind_ok updates
    split at one
    · cases one
    · cases one
      refine ih (freeze_covering covering (later first List.mem_cons_self)) others ?_
      intro setterId member pair isPair keyed
      obtain ⟨old, isOld, changed⟩ := mem_update.mp isPair
      split at changed
      · rw [changed]
        exact Or.inr rfl
      · subst changed
        exact later setterId (List.mem_cons_of_mem _ member) pair isOld keyed

theorem mem_upsert {added quant : QuantRow} : quant ∈ (store.upsertQuant added).quants →
    (quant ∈ store.quants ∧ quant.key ≠ added.key) ∨ quant = added := by
  intro member
  rw [upsertQuant] at member
  dsimp only at member
  split at member
  · obtain ⟨old, isOld, changed⟩ := mem_update.mp member
    split at changed
    · rename_i chosen
      have keyed : old.key = added.key := of_decide_eq_true chosen
      right
      rw [changed]
      have sameId : old.id = added.id := congrArg Prod.fst keyed
      have sameProfile : old.profileId = added.profileId := congrArg Prod.snd keyed
      rw [sameId, sameProfile]
    · rename_i unchosen
      subst changed
      exact Or.inl ⟨isOld, fun keyed => unchosen (decide_eq_true keyed)⟩
  · rename_i absent
    rcases List.mem_append.mp member with old | new
    · exact Or.inl ⟨old, fun keyed => absent (List.any_eq_true.mpr ⟨quant, old, decide_eq_true keyed⟩)⟩
    · exact Or.inr (List.mem_singleton.mp new)

theorem upserted (added : QuantRow) : added ∈ (store.upsertQuant added).quants := by
  rw [upsertQuant]
  dsimp only
  split
  · rename_i present
    obtain ⟨old, isOld, chosen⟩ := List.any_eq_true.mp present
    have keyed : old.key = added.key := of_decide_eq_true chosen
    apply mem_update.mpr ⟨old, isOld, _⟩
    have sameId : old.id = added.id := congrArg Prod.fst keyed
    have sameProfile : old.profileId = added.profileId := congrArg Prod.snd keyed
    rw [if_pos chosen, sameId, sameProfile]
  · exact List.mem_append_right _ (List.mem_singleton_self added)

theorem upsert_keeps {added quant : QuantRow} (member : quant ∈ store.quants) (other : quant.key ≠ added.key) :
    quant ∈ (store.upsertQuant added).quants := by
  rw [upsertQuant]
  dsimp only
  split
  · apply mem_update.mpr ⟨quant, member, _⟩
    rw [if_neg fun chosen => other (of_decide_eq_true chosen)]
  · exact List.mem_append_left _ member

/-- The code of a vector for a pair. -/
def codeFor (codec : Int8Codec) (pair : CoverageRow) (vector : VectorRow) (scale : codec.Scale) : QuantRow :=
  { id := vector.id, profileId := pair.profileId, rev := pair.artifactRev,
    quant := codec.quantizeInt8 vector.embedding scale }

variable {pair : CoverageRow} {vector : VectorRow} {scale : codec.Scale}

theorem quantized_upsert (sound : store.Sound) (isPair : pair ∈ store.coverage) (isVector : vector ∈ store.vectors)
    (ofSetter : vector.setterId = pair.setterId) {other : CoverageRow} {found : VectorRow}
    (isOther : other ∈ store.coverage) (isFound : found ∈ store.vectors)
    (foundSetter : found.setterId = other.setterId) (held : store.quantized other found = true) :
    (store.upsertQuant (codeFor codec pair vector scale)).quantized other found = true := by
  obtain ⟨quant, isQuant, keyed, ofRev⟩ := quantized_iff.mp held
  by_cases same : quant.key = (codeFor codec pair vector scale).key
  · have sameKey : (found.id, other.profileId) = (vector.id, pair.profileId) := keyed.symm.trans same
    rw [Prod.mk.injEq] at sameKey
    have sameVector : found = vector := List.inj_on_of_nodup_map sound.vectorIds isFound isVector sameKey.1
    have samePair : other = pair := by
      apply sound.pair_unique isOther isPair
      rw [CoverageRow.key, CoverageRow.key, sameKey.2, ← foundSetter, sameVector, ofSetter]
    rw [sameVector, samePair]
    exact quantized_iff.mpr ⟨_, upserted _, rfl, rfl⟩
  · exact quantized_iff.mpr ⟨quant, upsert_keeps isQuant same, keyed, ofRev⟩

theorem upsert_covering (covering : Covering codec Waits store) (isPair : pair ∈ store.coverage)
    (isVector : vector ∈ store.vectors) (ofSetter : vector.setterId = pair.setterId)
    (scaled : pair.scale codec = some scale) (fits : pair.Fits vector) :
    Covering codec Waits (store.upsertQuant (codeFor codec pair vector scale)) where
  sound := covering.sound.upsert_quant (covering.sound.pairProfiles pair isPair)
    (List.mem_map_of_mem isVector)
  revised := by
    intro quant isQuant other isOther same
    rcases mem_upsert isQuant with ⟨old, -⟩ | rfl
    · exact covering.revised quant old other isOther same
    · have sameVector : other = vector := List.inj_on_of_nodup_map covering.sound.vectorIds isOther isVector same
      refine ⟨pair, isPair, ?_, le_rfl⟩
      rw [sameVector, ofSetter]
      rfl
  coded := by
    intro quant isQuant other isOther same found isFound keyed begun ofRev
    rcases mem_upsert isQuant with ⟨old, -⟩ | rfl
    · exact covering.coded quant old other isOther same found isFound keyed begun ofRev
    · have sameVector : other = vector := List.inj_on_of_nodup_map covering.sound.vectorIds isOther isVector same
      have samePair : found = pair := by
        apply covering.sound.pair_unique isFound isPair
        rw [keyed, sameVector, ofSetter]
        rfl
      rw [samePair, sameVector]
      exact ⟨fits, scale, scaled, rfl⟩
  covered := by
    intro other isOther ready active sized otherScaled found isFound foundSetter here
    exact quantized_upsert covering.sound isPair isVector ofSetter isOther isFound foundSetter
      (covering.covered other isOther ready active sized otherScaled found isFound foundSetter here)

theorem fill_covering {vectors : List VectorRow} {before done : ChunkProgress} {artifact : Blob}
    (covering : Covering codec Waits before.store) (isPair : pair ∈ before.store.coverage)
    (isArtifact : pair.artifact = some artifact)
    (known : ∀ vector ∈ vectors,
      vector ∈ before.store.vectors ∧ vector.setterId = pair.setterId ∧ pair.Fits vector)
    (filled : vectors.foldlM (fillVector codec pair artifact) before = .ok done) :
    Covering codec Waits done.store := by
  induction vectors generalizing before with
  | nil =>
    cases filled
    exact covering
  | cons first rest ih =>
    rw [List.foldlM_cons] at filled
    obtain ⟨next, one, others⟩ := bind_ok filled
    unfold fillVector at one
    split at one
    · cases one
    · rename_i scale scaled
      cases one
      obtain ⟨isFirst, ofSetter, fits⟩ := known first List.mem_cons_self
      have scaledPair : pair.scale codec = some scale := by
        rw [CoverageRow.scale, isArtifact]
        exact scaled
      have written := upsert_covering covering isPair isFirst ofSetter scaledPair fits
      exact @ih ⟨_, _, before.store.upsertQuant (codeFor codec pair first scale)⟩ written isPair
        (fun vector member => known vector (List.mem_cons_of_mem _ member)) others

section

variable (covering : Covering codec Waits store)

include covering

theorem backfill_covering {afterId : Int} {limit : Nat} {progress : ChunkProgress}
    (chunk : store.backfillChunk codec profileId setterId limit afterId = .ok progress) :
    Covering codec Waits progress.store := by
  unfold backfillChunk at chunk
  cases found : store.buildingArtifact profileId setterId with
  | none =>
    rw [found] at chunk
    cases chunk
    exact covering
  | some building =>
    rw [found] at chunk
    obtain ⟨pair, isPair, isBuilding⟩ := Option.bind_eq_some_iff.mp found
    split at isBuilding
    · obtain ⟨artifact, isArtifact, rfl⟩ := Option.map_eq_some_iff.mp isBuilding
      refine fill_covering covering (mem_of_row_with isPair).1 isArtifact ?_ chunk
      intro vector member
      have listed := List.mem_filter.mp ((KeyedSort.sort_perm _ _).mem_iff.mp (List.mem_of_mem_take member))
      obtain ⟨isVector, ofSetter⟩ := List.mem_filter.mp listed.1
      have wanted := listed.2
      rw [Bool.and_eq_true, Bool.and_eq_true, Option.any_eq_true] at wanted
      obtain ⟨dim, isDim, sized⟩ := wanted.1.2
      refine ⟨isVector, of_decide_eq_true ofSetter, ?_⟩
      rw [CoverageRow.Fits, isDim, Option.map_some, of_decide_eq_true sized]
    · cases isBuilding

theorem finish_pair_covering
    (finished : store.finishPair profileId setterId = .ok after) : Covering codec Waits after := by
  unfold finishPair at finished
  cases found : (store.pair profileId setterId).filter fun pair => pair.state = .building with
  | none =>
    rw [found] at finished
    cases finished
  | some pair =>
    rw [found] at finished
    dsimp only at finished
    obtain ⟨isPair, building⟩ := Option.filter_eq_some_iff.mp found
    obtain ⟨member, keyed⟩ := mem_of_row_with isPair
    split at finished
    · split at finished
      · cases finished
      · cases finished
    · rename_i complete
      cases finished
      rw [Nat.not_lt, Nat.le_zero, List.countP_eq_zero] at complete
      let total := (store.vectorsOf setterId).length
      have whichever {other : CoverageRow}
          (isOther : other ∈ (store.updatePair profileId setterId (markReady total)).coverage) :
          other ∈ store.coverage ∨ other = markReady total pair := by
        obtain ⟨old, isOld, changed⟩ := mem_update.mp isOther
        split at changed
        · rename_i chosen
          right
          rw [changed, covering.sound.pair_unique isOld member ((of_decide_eq_true chosen).trans keyed.symm)]
        · exact Or.inl (changed ▸ isOld)
      exact {
        sound := covering.sound.update_pairs _ _ fun _ => rfl
        revised := by
          intro quant isQuant vector isVector same
          obtain ⟨owner, isOwner, ownerKeyed, bounded⟩ := covering.revised quant isQuant vector isVector same
          refine ⟨_, mem_update.mpr ⟨owner, isOwner, rfl⟩, ?_⟩
          split
          · exact ⟨ownerKeyed, bounded⟩
          · exact ⟨ownerKeyed, bounded⟩
        coded := by
          intro quant isQuant vector isVector same other isOther otherKeyed begun ofRev
          rcases whichever isOther with old | rfl
          · exact covering.coded quant isQuant vector isVector same other old otherKeyed begun ofRev
          · have started : pair.state ≠ .pending := by
              rw [of_decide_eq_true building]
              exact PairState.noConfusion
            exact covering.coded quant isQuant vector isVector same pair member otherKeyed started ofRev
        covered := by
          intro other isOther ready active sized scaled vector isVector ofSetter here
          rcases whichever isOther with old | rfl
          · exact covering.covered other old ready active sized scaled vector isVector ofSetter here
          · have ofPair : pair.setterId = setterId := congrArg Prod.snd keyed
            have listed : vector ∈ store.vectorsOf setterId :=
              List.mem_filter.mpr ⟨isVector, decide_eq_true (ofSetter.trans ofPair)⟩
            have quantized := complete vector listed
            rw [Bool.not_eq_true, Bool.not_eq_false'] at quantized
            exact quantized }

theorem finish_covering {setterIds : List Int}
    (finished : store.finishSpaceBuild profileId setterIds = .ok after) : Covering codec Waits after := by
  rw [finishSpaceBuild] at finished
  induction setterIds generalizing store with
  | nil =>
    cases finished
    exact covering
  | cons first rest ih =>
    rw [List.foldlM_cons] at finished
    obtain ⟨next, one, others⟩ := bind_ok finished
    exact ih (finish_pair_covering covering one) others

theorem delete_chunk_covering (removable : Removable store profileId)
    (limit : Nat) : Covering codec Waits (store.deleteQuantsChunk profileId limit).2 where
  sound := covering.sound.fewer_quants _
  revised := fun quant isQuant => covering.revised quant (List.mem_filter.mp isQuant).1
  coded := fun quant isQuant => covering.coded quant (List.mem_filter.mp isQuant).1
  covered := by
    intro pair isPair ready active sized scaled vector isVector ofSetter here
    have begun := begun_of_ready ready
    have other : pair.profileId ≠ profileId :=
      fun same => removable pair isPair same begun (same ▸ active)
    have held := covering.covered pair isPair ready active sized scaled vector isVector ofSetter here
    obtain ⟨quant, isQuant, keyed, ofRev⟩ := quantized_iff.mp held
    have ofProfile : quant.profileId = pair.profileId := congrArg Prod.snd keyed
    refine quantized_iff.mpr ⟨quant, List.mem_filter.mpr ⟨isQuant, ?_⟩, keyed, ofRev⟩
    rw [Bool.not_eq_true', List.any_eq_false]
    intro gone isGone same
    have goneProfile := of_decide_eq_true (List.mem_filter.mp (List.mem_of_mem_take isGone)).2
    have sameProfile : gone.profileId = quant.profileId := congrArg Prod.snd (of_decide_eq_true same)
    exact other (ofProfile.symm.trans (sameProfile.symm.trans goneProfile))

end

end Building

section Inline

variable {codec : Int8Codec} {store after : Store} {vector : VectorRow}

theorem inline_quant_covering {Waits : VectorRow → Prop} (covering : Covering codec Waits store)
    (isVector : vector ∈ store.vectors) (isPair : pair ∈ store.coverage)
    (ofSetter : vector.setterId = pair.setterId) : Covering codec Waits (store.writeInlineQuant codec vector pair) ∧
      OnlyCodes store (store.writeInlineQuant codec vector pair) ∧
      (∀ other ∈ store.coverage, vector.setterId = other.setterId → store.quantized other vector = true →
        (store.writeInlineQuant codec vector pair).quantized other vector = true) ∧
      ((pair.Fits vector ∧ (pair.scale codec).isSome = true) →
        (store.writeInlineQuant codec vector pair).quantized pair vector = true) := by
  unfold writeInlineQuant
  split
  · rename_i mismatched
    exact ⟨covering, OnlyCodes.refl _, fun _ _ _ held => held, fun fits => absurd fits.1 mismatched⟩
  · split
    · rename_i noScale
      refine ⟨covering, OnlyCodes.refl _, fun _ _ _ held => held, fun fits => ?_⟩
      rw [noScale] at fits
      cases fits.2
    · rename_i fitting _ scale scaled
      refine ⟨upsert_covering covering isPair isVector ofSetter scaled (not_not.mp fitting),
        ⟨rfl, rfl, rfl, rfl⟩, ?_, fun _ => ?_⟩
      · intro other isOther otherSetter held
        exact @quantized_upsert codec store pair vector scale covering.sound isPair isVector ofSetter other vector
          isOther isVector otherSetter held
      · exact quantized_iff.mpr ⟨_, upserted (codeFor codec pair vector scale), rfl, rfl⟩

theorem inline_quants_covering {Waits : VectorRow → Prop} (pairs : List CoverageRow)
    (covering : Covering codec Waits store) (isVector : vector ∈ store.vectors)
    (known : ∀ pair ∈ pairs, pair ∈ store.coverage ∧ vector.setterId = pair.setterId) :
    Covering codec Waits (pairs.foldl (writeInlineQuant codec vector) store) ∧
      OnlyCodes store (pairs.foldl (writeInlineQuant codec vector) store) ∧
      (∀ other ∈ store.coverage, vector.setterId = other.setterId → store.quantized other vector = true →
        (pairs.foldl (writeInlineQuant codec vector) store).quantized other vector = true) ∧
      ∀ pair ∈ pairs, (pair.Fits vector ∧ (pair.scale codec).isSome = true) →
        (pairs.foldl (writeInlineQuant codec vector) store).quantized pair vector = true := by
  induction pairs generalizing store with
  | nil =>
    exact ⟨covering, OnlyCodes.refl _, fun _ _ _ held => held, nofun⟩
  | cons first rest ih =>
    obtain ⟨isFirst, ofSetter⟩ := known first List.mem_cons_self
    obtain ⟨written, only, kept, made⟩ := inline_quant_covering covering isVector isFirst ofSetter
    obtain ⟨last, lastOnly, lastKept, lastMade⟩ := ih written (only.vectors ▸ isVector) (by
      intro pair member
      rw [only.coverage]
      exact known pair (List.mem_cons_of_mem _ member))
    rw [List.foldl_cons]
    refine ⟨last, only.trans lastOnly, ?_, ?_⟩
    · intro other isOther otherSetter held
      exact lastKept other (only.coverage ▸ isOther) otherSetter (kept other isOther otherSetter held)
    · intro pair member fits
      rcases List.mem_cons.mp member with rfl | later
      · exact lastKept pair (only.coverage ▸ isFirst) ofSetter (made fits)
      · exact lastMade pair later fits

theorem new_vector_covering (covering : Covering codec (fun _ => False) store)
    (unused : ∀ row ∈ store.vectors, row.id ≠ vector.id)
    (setter : vector.setterId ∈ store.setters.map SetterRow.id) :
    Covering codec (fun row => row = vector) { store with vectors := store.vectors ++ [vector] } := by
  have sound := covering.sound
  have foreign : ∀ quant ∈ store.quants, vector.id ≠ quant.id := by
    intro quant isQuant same
    obtain ⟨row, isRow, owns⟩ := List.mem_map.mp (sound.codeVectors quant isQuant)
    exact unused row isRow (owns.trans same.symm)
  have old {quant : QuantRow} {row : VectorRow} (isQuant : quant ∈ store.quants)
      (isRow : row ∈ store.vectors ++ [vector]) (same : row.id = quant.id) : row ∈ store.vectors := by
    rcases List.mem_append.mp isRow with stored | new
    · exact stored
    · rw [List.mem_singleton.mp new] at same
      exact absurd same (foreign quant isQuant)
  exact {
    sound := {
      setterIds := sound.setterIds
      setterNames := sound.setterNames
      vectorIds := keys_append_unused sound.vectorIds unused
      profileIds := sound.profileIds
      profileNames := sound.profileNames
      pairs := sound.pairs
      codes := sound.codes
      vectorSetters := sound.vectorSetters.append (Refers.singleton setter)
      pairProfiles := sound.pairProfiles
      pairSetters := sound.pairSetters
      codeProfiles := sound.codeProfiles
      codeVectors := sound.codeVectors.append_parents [vector] }
    revised := fun quant isQuant row isRow same =>
      covering.revised quant isQuant row (old isQuant isRow same) same
    coded := fun quant isQuant row isRow same =>
      covering.coded quant isQuant row (old isQuant isRow same) same
    covered := by
      intro pair isPair ready active sized scaled row isRow ofSetter here
      rcases List.mem_append.mp isRow with stored | new
      · exact covering.covered pair isPair ready active sized scaled row stored ofSetter id
      · exact absurd (List.mem_singleton.mp new) here }

theorem downgrade_calms (vector : VectorRow) : Resets store (store.downgrade vector) :=
  pending_resets _ (fun _ => rfl) (fun _ => rfl) fun _ => rfl

theorem mem_inline_pairs (member : pair ∈ store.inlinePairs vector) :
    pair ∈ store.coverage ∧ vector.setterId = pair.setterId := by
  obtain ⟨isPair, chosen⟩ := List.mem_filter.mp member
  rw [Bool.and_eq_true, Bool.and_eq_true, Bool.and_eq_true, decide_eq_true_iff] at chosen
  exact ⟨isPair, chosen.1.1.1.symm⟩

theorem active_profile_iff {profileId : Int} : store.activeProfile profileId = true ↔ Active store profileId := by
  rw [activeProfile, List.any_eq_true]
  simp only [Bool.and_eq_true, decide_eq_true_iff]
  rfl

section

variable (covering : Covering codec (fun _ => False) store)

include covering

theorem add_embedding_ok (added : store.addEmbedding codec vector = .ok after) : ∃ written,
      after = written.downgrade vector ∧ Covering codec (fun row => row = vector) written ∧
        OnlyCodes { store with vectors := store.vectors ++ [vector] } written ∧
        ∀ pair ∈ store.coverage, pair.setterId = vector.setterId → Active store pair.profileId →
          pair.state ≠ .pending → (pair.scale codec).isSome = true → pair.Fits vector →
            written.quantized pair vector = true := by
  unfold addEmbedding at added
  split at added
  · cases added
  rename_i allowed
  cases added
  rw [Bool.or_eq_true, not_or, Bool.not_eq_true, Bool.not_eq_true, Bool.not_eq_false'] at allowed
  obtain ⟨unused, known⟩ := allowed
  rw [List.any_eq_false] at unused
  have free : ∀ row ∈ store.vectors, row.id ≠ vector.id :=
    fun row isRow same => unused row isRow (decide_eq_true same)
  obtain ⟨setter, isSetter, sameSetter⟩ := List.any_eq_true.mp known
  have waiting := new_vector_covering covering free
    (List.mem_map.mpr ⟨setter, isSetter, of_decide_eq_true sameSetter⟩)
  let stored : Store := { store with vectors := store.vectors ++ [vector] }
  have isVector : vector ∈ stored.vectors := List.mem_append_right _ (List.mem_singleton_self vector)
  obtain ⟨written, only, -, made⟩ := inline_quants_covering (stored.inlinePairs vector) waiting isVector
    fun pair member => mem_inline_pairs member
  refine ⟨_, rfl, written, only, ?_⟩
  intro pair isPair ofSetter active begun scaled fits
  apply made pair _ ⟨fits, scaled⟩
  apply List.mem_filter.mpr ⟨isPair, _⟩
  have hasArtifact : pair.artifact.isSome = true := by
    unfold CoverageRow.scale at scaled
    cases isArtifact : pair.artifact with
    | none =>
      rw [isArtifact] at scaled
      cases scaled
    | some artifact => rfl
  rw [Bool.and_eq_true, Bool.and_eq_true, Bool.and_eq_true]
  exact ⟨⟨⟨decide_eq_true ofSetter, active_profile_iff.mpr active⟩, decide_eq_true begun⟩, hasArtifact⟩

theorem add_embedding_calms (added : store.addEmbedding codec vector = .ok after) : Calms store after := by
  obtain ⟨written, rfl, -, only, -⟩ := add_embedding_ok covering added
  have former : Calms store written := by
    intro pair member _
    rw [only.coverage] at member
    refine ⟨member, fun row isRow _ isActive => ?_⟩
    rw [only.profiles] at isRow
    exact ⟨row, isRow, rfl, isActive, rfl⟩
  exact former.trans (downgrade_calms vector).calms

theorem add_embedding_covering
    (added : store.addEmbedding codec vector = .ok after) : Covering codec (fun _ => False) after := by
  obtain ⟨written, rfl, waiting, only, made⟩ := add_embedding_ok covering added
  have reset := waiting.reset (downgrade_calms vector)
  refine ⟨reset.sound, reset.revised, reset.coded, ?_⟩
  intro pair isPair ready active sized scaled row isRow ofSetter _
  by_cases isNew : row = vector
  · subst isNew
    have begun := begun_of_ready ready
    obtain ⟨old, isOld, changed⟩ := mem_update.mp isPair
    split at changed
    · rw [changed] at ready
      cases ready
    rename_i fitting
    subst changed
    rw [only.coverage] at isOld
    have oldActive : Active store pair.profileId := by
      obtain ⟨profile, isProfile, rest⟩ := active
      have inWritten : profile ∈ written.profiles := isProfile
      rw [only.profiles] at inWritten
      exact ⟨profile, inWritten, rest⟩
    have fits : pair.Fits row := by
      obtain ⟨dim, isDim⟩ := Option.isSome_iff_exists.mp sized
      rw [mismatches, Bool.not_eq_true, Bool.and_eq_false_iff, Bool.and_eq_false_iff] at fitting
      rw [CoverageRow.Fits, isDim, Option.map_some, Option.some.injEq]
      rcases fitting with (pending | other) | fits
      · exact absurd (of_decide_eq_false pending) (not_not_intro begun)
      · exact absurd ofSetter.symm (of_decide_eq_false other)
      · rw [isDim, Option.any_some, decide_eq_false_iff_not, not_not] at fits
        exact fits.symm
    exact made pair isOld ofSetter.symm oldActive begun scaled fits
  · exact reset.covered pair isPair ready active sized scaled row isRow ofSetter isNew

end

end Inline

end Panoptikon.VectorQuants
