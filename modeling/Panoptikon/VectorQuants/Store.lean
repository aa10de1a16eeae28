import Panoptikon.Foundation.Rows
import Panoptikon.Foundation.ByteText

/-!
# The vector quantization tables

The tables of `migrations/index/20260720130000_vector_quants.sql` and what
`db/vector_quants.rs` reads beside them: the setters, and the vectors
(`item_data` joined to `embeddings`). A profile is a way of quantizing; its
coverage has a row for each setter, and its codes a row for each vector.
-/

namespace Panoptikon.VectorQuants

open Foundation

inductive ApiError where
  | badRequest (message : String)
  | internal (message : String)
deriving DecidableEq

def writeErr : ApiError := .internal "Failed to write vector quant state"

abbrev Blob := List UInt8

structure SetterRow where
  id : Int
  name : Text
deriving DecidableEq

/-- A row of `item_data` that has a row of `embeddings`. -/
structure VectorRow where
  id : Int
  setterId : Int
  dataType : Text
  embedding : Blob
deriving DecidableEq

inductive ProfileState where
  | active
  | removing
deriving DecidableEq

structure ProfileRow where
  id : Int
  name : Text
  quantizer : Text
  options : Option Text
  state : ProfileState
  isDefault : Bool
deriving DecidableEq

inductive PairState where
  | pending
  | building
  | ready
deriving DecidableEq

/-- A pair of a profile and a setter. -/
structure CoverageRow where
  profileId : Int
  setterId : Int
  needsArtifact : Bool
  artifact : Option Blob := none
  artifactRev : Int := 0
  nAtArtifact : Option Int := none
  dim : Option Int := none
  state : PairState := .pending
deriving DecidableEq

def CoverageRow.key (row : CoverageRow) : Int × Int := (row.profileId, row.setterId)

structure QuantRow where
  id : Int
  profileId : Int
  rev : Int
  quant : Blob
deriving DecidableEq

def QuantRow.key (row : QuantRow) : Int × Int := (row.id, row.profileId)

structure Store where
  setters : List SetterRow := []
  vectors : List VectorRow := []
  profiles : List ProfileRow := []
  coverage : List CoverageRow := []
  quants : List QuantRow := []
deriving DecidableEq

namespace Store

/-- The constraints of the schema: keys are unique and references have their rows. -/
structure Sound (store : Store) : Prop where
  setterIds : (store.setters.map SetterRow.id).Nodup
  setterNames : (store.setters.map SetterRow.name).Nodup
  vectorIds : (store.vectors.map VectorRow.id).Nodup
  profileIds : (store.profiles.map ProfileRow.id).Nodup
  profileNames : (store.profiles.map ProfileRow.name).Nodup
  pairs : (store.coverage.map CoverageRow.key).Nodup
  codes : (store.quants.map QuantRow.key).Nodup
  vectorSetters : Refers VectorRow.setterId SetterRow.id store.vectors store.setters
  pairProfiles : Refers CoverageRow.profileId ProfileRow.id store.coverage store.profiles
  pairSetters : Refers CoverageRow.setterId SetterRow.id store.coverage store.setters
  codeProfiles : Refers QuantRow.profileId ProfileRow.id store.quants store.profiles
  codeVectors : Refers QuantRow.id VectorRow.id store.quants store.vectors

variable (store : Store)

def named (name : Text) : Option ProfileRow := rowWith ProfileRow.name name store.profiles

def pair (profileId setterId : Int) : Option CoverageRow :=
  rowWith CoverageRow.key (profileId, setterId) store.coverage

def profileHasQuants (profileId : Int) : Bool := store.quants.any fun row => row.profileId = profileId

/-- `INSERT OR IGNORE INTO vector_quant_coverage`: a row that is there stays, and
the references of a new one are checked. -/
def insertPair (profileId setterId : Int) (needsArtifact : Bool) : Except ApiError Store :=
  if (store.pair profileId setterId).isSome then .ok store
  else if (store.profiles.any fun row => row.id = profileId) && store.setters.any fun row => row.id = setterId then
    .ok { store with coverage := store.coverage ++ [{ profileId, setterId, needsArtifact }] }
  else .error writeErr

def goesWith (chosen : ProfileRow → Bool) (profileId : Int) : Bool :=
  store.profiles.any fun row => chosen row && row.id = profileId

/-- `DELETE FROM vector_quant_profiles`, with its cascades. -/
def deleteProfiles (chosen : ProfileRow → Bool) : Store :=
  { store with
    profiles := store.profiles.filter fun row => !chosen row
    coverage := store.coverage.filter fun row => !store.goesWith chosen row.profileId
    quants := store.quants.filter fun row => !store.goesWith chosen row.profileId }

/-- `ON CONFLICT (id, profile_id) DO UPDATE`. -/
def upsertQuant (added : QuantRow) : Store :=
  { store with
    quants :=
      if store.quants.any fun row => row.key = added.key then
        updateWhere (fun row => row.key = added.key) (fun row => { row with rev := added.rev, quant := added.quant })
          store.quants
      else store.quants ++ [added] }

namespace Sound

variable {store : Store} (sound : store.Sound)

include sound

theorem named_iff {name : Text} {row : ProfileRow} :
    store.named name = some row ↔ row ∈ store.profiles ∧ row.name = name :=
  row_with_eq_some sound.profileNames

theorem pair_iff {profileId setterId : Int} {row : CoverageRow} :
    store.pair profileId setterId = some row ↔ row ∈ store.coverage ∧ row.key = (profileId, setterId) :=
  row_with_eq_some sound.pairs

theorem id_injective {first second : ProfileRow} (isFirst : first ∈ store.profiles)
    (isSecond : second ∈ store.profiles) (same : first.id = second.id) : first = second :=
  eq_of_key sound.profileIds isFirst isSecond same

theorem add_profile (ids : RowIds) {added : ProfileRow}
    (isNew : added.id = ids.next (store.profiles.map ProfileRow.id))
    (unnamed : added.name ∉ store.profiles.map ProfileRow.name) :
    Sound { store with profiles := store.profiles ++ [added] } where
  setterIds := sound.setterIds
  setterNames := sound.setterNames
  vectorIds := sound.vectorIds
  profileIds := keys_append_fresh ids sound.profileIds isNew
  profileNames := by
    rw [List.map_append, List.map_singleton]
    apply List.nodup_append.mpr
    refine ⟨sound.profileNames, List.nodup_singleton _, ?_⟩
    intro name isOld other isAdded same
    rw [same, List.mem_singleton.mp isAdded] at isOld
    exact unnamed isOld
  pairs := sound.pairs
  codes := sound.codes
  vectorSetters := sound.vectorSetters
  pairProfiles := sound.pairProfiles.append_parents [added]
  pairSetters := sound.pairSetters
  codeProfiles := sound.codeProfiles.append_parents [added]
  codeVectors := sound.codeVectors

theorem update_profiles (chosen : ProfileRow → Bool) (change : ProfileRow → ProfileRow)
    (sameId : ∀ row, (change row).id = row.id) (sameName : ∀ row, (change row).name = row.name) :
    Sound { store with profiles := updateWhere chosen change store.profiles } where
  setterIds := sound.setterIds
  setterNames := sound.setterNames
  vectorIds := sound.vectorIds
  profileIds := by
    have ids : (updateWhere chosen change store.profiles).map ProfileRow.id =
        store.profiles.map ProfileRow.id := keys_update sameId
    rw [ids]
    exact sound.profileIds
  profileNames := by
    have names : (updateWhere chosen change store.profiles).map ProfileRow.name =
        store.profiles.map ProfileRow.name := keys_update sameName
    rw [names]
    exact sound.profileNames
  pairs := sound.pairs
  codes := sound.codes
  vectorSetters := sound.vectorSetters
  pairProfiles := sound.pairProfiles.of_keys (keys_update sameId)
  pairSetters := sound.pairSetters
  codeProfiles := sound.codeProfiles.of_keys (keys_update sameId)
  codeVectors := sound.codeVectors

theorem update_pairs (chosen : CoverageRow → Bool) (change : CoverageRow → CoverageRow)
    (same : ∀ row, (change row).key = row.key) :
    Sound { store with coverage := updateWhere chosen change store.coverage } where
  setterIds := sound.setterIds
  setterNames := sound.setterNames
  vectorIds := sound.vectorIds
  profileIds := sound.profileIds
  profileNames := sound.profileNames
  pairs := by
    have keys : (updateWhere chosen change store.coverage).map CoverageRow.key =
        store.coverage.map CoverageRow.key := keys_update same
    rw [keys]
    exact sound.pairs
  codes := sound.codes
  vectorSetters := sound.vectorSetters
  pairProfiles := sound.pairProfiles.of_refs (keys_update fun row => congrArg Prod.fst (same row))
  pairSetters := sound.pairSetters.of_refs (keys_update fun row => congrArg Prod.snd (same row))
  codeProfiles := sound.codeProfiles
  codeVectors := sound.codeVectors

theorem add_pair {added : CoverageRow} (absent : added.key ∉ store.coverage.map CoverageRow.key)
    (profile : added.profileId ∈ store.profiles.map ProfileRow.id)
    (setter : added.setterId ∈ store.setters.map SetterRow.id) :
    Sound { store with coverage := store.coverage ++ [added] } where
  setterIds := sound.setterIds
  setterNames := sound.setterNames
  vectorIds := sound.vectorIds
  profileIds := sound.profileIds
  profileNames := sound.profileNames
  pairs := by
    rw [List.map_append, List.map_singleton]
    apply List.nodup_append.mpr
    refine ⟨sound.pairs, List.nodup_singleton _, ?_⟩
    intro key isOld other isAdded same
    rw [same, List.mem_singleton.mp isAdded] at isOld
    exact absent isOld
  codes := sound.codes
  vectorSetters := sound.vectorSetters
  pairProfiles := sound.pairProfiles.append (Refers.singleton profile)
  pairSetters := sound.pairSetters.append (Refers.singleton setter)
  codeProfiles := sound.codeProfiles
  codeVectors := sound.codeVectors

theorem fewer_quants (keep : QuantRow → Bool) : Sound { store with quants := store.quants.filter keep } where
  setterIds := sound.setterIds
  setterNames := sound.setterNames
  vectorIds := sound.vectorIds
  profileIds := sound.profileIds
  profileNames := sound.profileNames
  pairs := sound.pairs
  codes := sound.codes.sublist (List.filter_sublist.map QuantRow.key)
  vectorSetters := sound.vectorSetters
  pairProfiles := sound.pairProfiles
  pairSetters := sound.pairSetters
  codeProfiles := sound.codeProfiles.of_subset (List.filter_sublist.subset)
  codeVectors := sound.codeVectors.of_subset (List.filter_sublist.subset)

theorem delete_profiles (chosen : ProfileRow → Bool) : (store.deleteProfiles chosen).Sound := by
  have left : ∀ profileId, (!store.goesWith chosen profileId) = true →
      ∀ row ∈ store.profiles, row.id = profileId → (!chosen row) = true := by
    intro profileId stays row member same
    rw [goesWith, Bool.not_eq_true', List.any_eq_false] at stays
    have unchosen := stays row member
    rw [same, decide_eq_true rfl, Bool.and_true] at unchosen
    rw [Bool.not_eq_true', ← Bool.not_eq_true]
    exact unchosen
  exact {
    setterIds := sound.setterIds
    setterNames := sound.setterNames
    vectorIds := sound.vectorIds
    profileIds := sound.profileIds.sublist (List.filter_sublist.map ProfileRow.id)
    profileNames := sound.profileNames.sublist (List.filter_sublist.map ProfileRow.name)
    pairs := sound.pairs.sublist (List.filter_sublist.map CoverageRow.key)
    codes := sound.codes.sublist (List.filter_sublist.map QuantRow.key)
    vectorSetters := sound.vectorSetters
    pairProfiles := (sound.pairProfiles.of_subset (List.filter_sublist.subset)).filter_parents
      fun pair isPair row member same => left pair.profileId (List.mem_filter.mp isPair).2 row member same
    pairSetters := sound.pairSetters.of_subset (List.filter_sublist.subset)
    codeProfiles := (sound.codeProfiles.of_subset (List.filter_sublist.subset)).filter_parents
      fun code isCode row member same => left code.profileId (List.mem_filter.mp isCode).2 row member same
    codeVectors := sound.codeVectors.of_subset (List.filter_sublist.subset) }

theorem upsert_quant {added : QuantRow} (profile : added.profileId ∈ store.profiles.map ProfileRow.id)
    (vector : added.id ∈ store.vectors.map VectorRow.id) : (store.upsertQuant added).Sound := by
  have codes : ((store.upsertQuant added).quants.map QuantRow.key).Nodup := by
    rw [upsertQuant]
    dsimp only
    split
    · rw [keys_update]
      · exact sound.codes
      · intro row
        rfl
    · rename_i absent
      rw [List.map_append, List.map_singleton]
      apply List.nodup_append.mpr
      refine ⟨sound.codes, List.nodup_singleton _, ?_⟩
      intro key isOld other isAdded same
      rw [same, List.mem_singleton.mp isAdded] at isOld
      obtain ⟨row, member, sameKey⟩ := List.mem_map.mp isOld
      exact absent (List.any_eq_true.mpr ⟨row, member, decide_eq_true sameKey⟩)
  have codeProfiles : Refers QuantRow.profileId ProfileRow.id (store.upsertQuant added).quants store.profiles := by
    rw [upsertQuant]
    dsimp only
    split
    · exact sound.codeProfiles.of_refs (keys_update fun _ => rfl)
    · exact sound.codeProfiles.append (Refers.singleton profile)
  have codeVectors : Refers QuantRow.id VectorRow.id (store.upsertQuant added).quants store.vectors := by
    rw [upsertQuant]
    dsimp only
    split
    · exact sound.codeVectors.of_refs (keys_update fun _ => rfl)
    · exact sound.codeVectors.append (Refers.singleton vector)
  exact ⟨sound.setterIds, sound.setterNames, sound.vectorIds, sound.profileIds, sound.profileNames, sound.pairs,
    codes, sound.vectorSetters, sound.pairProfiles, sound.pairSetters, codeProfiles, codeVectors⟩

end Sound

end Store

end Panoptikon.VectorQuants
