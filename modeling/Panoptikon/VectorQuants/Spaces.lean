import Panoptikon.VectorQuants.InSync
import Panoptikon.VectorQuants.Builds

/-!
# Spaces

Setters are grouped into spaces by their names, and no setter is in two. A space
is settled for a profile when its pairs are ready with one artifact; the data plan
builds the others once they have enough vectors.
-/

namespace Panoptikon.VectorQuants

open Foundation Foundation.KeyedSort

theorem keys_filter_map {Row Image Key : Type} {read : Row → Option Image} {key : Row → Key} {imageKey : Image → Key}
    (same : ∀ row image, read row = some image → imageKey image = key row) (rows : List Row) :
    ((rows.filterMap read).map imageKey).Sublist (rows.map key) := by
  induction rows with
  | nil => exact List.Sublist.slnil
  | cons first rest ih =>
    cases found : read first with
    | none =>
      rw [List.filterMap_cons_none found, List.map_cons]
      exact ih.cons _
    | some image =>
      rw [List.filterMap_cons_some found, List.map_cons, List.map_cons, same first image found]
      exact ih.cons_cons _

variable {store : Store} {desired : DesiredState}

theorem embedding_setter_keys {row : SetterRow} {setter : EmbeddingSetter}
    (made : store.embeddingSetter row = some setter) : setter.id = row.id ∧ setter.name = row.name := by
  obtain ⟨dataType, _, found⟩ := List.exists_of_findSome?_eq_some made
  obtain ⟨vector, _, rfl⟩ := Option.map_eq_some_iff.mp found
  exact ⟨rfl, rfl⟩

theorem embedding_ids_nodup (sound : store.Sound) : (store.loadEmbeddingSetters.map EmbeddingSetter.id).Nodup := by
  have sorted : ((sortByKey SetterRow.id store.setters).map SetterRow.id).Nodup :=
    ((sort_perm SetterRow.id store.setters).map SetterRow.id).nodup_iff.mpr sound.setterIds
  exact sorted.sublist (keys_filter_map (fun _ _ made => (embedding_setter_keys made).1) _)

theorem embedding_names_nodup (sound : store.Sound) :
    (store.loadEmbeddingSetters.map EmbeddingSetter.name).Nodup := by
  have sorted : ((sortByKey SetterRow.id store.setters).map SetterRow.name).Nodup :=
    ((sort_perm SetterRow.id store.setters).map SetterRow.name).nodup_iff.mpr sound.setterNames
  exact sorted.sublist (keys_filter_map (fun _ _ made => (embedding_setter_keys made).2) _)

def Apart (first second : List EmbeddingSetter) : Prop :=
  ∀ setter ∈ first, ∀ other ∈ second, setter.id ≠ other.id

instance : Std.Symm Apart :=
  ⟨fun _ _ apart setter member other isOther same => apart other isOther setter member same.symm⟩

section Grouping

variable {setters : List EmbeddingSetter}

theorem sibling_of {setter sibling : EmbeddingSetter} (found : xmodalSibling setters setter = some sibling) :
    setter.dataType = clip ∧ sibling ∈ setters ∧ sibling.name = xmodalTextSiblingName setter.name ∧
      sibling.dataType = textEmbedding := by
  rw [xmodalSibling] at found
  split at found
  · rename_i isClip
    obtain ⟨isSibling, suits⟩ := Option.filter_eq_some_iff.mp found
    obtain ⟨member, same⟩ := mem_of_row_with isSibling
    rw [Bool.and_eq_true, Bool.and_eq_true, decide_eq_true_iff] at suits
    exact ⟨isClip, List.mem_reverse.mp member, same, suits.1.1⟩
  · cases found

theorem clip_ne_text : clip ≠ textEmbedding := by
  intro same
  exact absurd (congrArg List.length same) (by decide)

def sharedSpace (setters : List EmbeddingSetter) (setter : EmbeddingSetter) : Option (List EmbeddingSetter) :=
  (xmodalSibling setters setter).map fun sibling => [setter, sibling]

theorem shared_spaces_apart (ids : (setters.map EmbeddingSetter.id).Nodup)
    (names : (setters.map EmbeddingSetter.name).Nodup) :
    (setters.filterMap (sharedSpace setters)).Pairwise Apart := by
  have alike : ∀ first ∈ setters, ∀ second ∈ setters, first.id = second.id → first = second :=
    fun first isFirst second isSecond same => List.inj_on_of_nodup_map ids isFirst isSecond same
  have distinct : setters.Nodup := ids.of_map
  rw [List.pairwise_filterMap]
  apply distinct.imp_of_mem
  intro first second isFirst isSecond differ space isSpace other isOther
  obtain ⟨firstText, foundFirst, rfl⟩ := Option.map_eq_some_iff.mp isSpace
  obtain ⟨secondText, foundSecond, rfl⟩ := Option.map_eq_some_iff.mp isOther
  obtain ⟨firstClip, isFirstText, firstName, firstType⟩ := sibling_of foundFirst
  obtain ⟨secondClip, isSecondText, secondName, secondType⟩ := sibling_of foundSecond
  intro setter member another isAnother same
  rcases List.mem_pair.mp member with rfl | rfl
  · rcases List.mem_pair.mp isAnother with rfl | rfl
    · exact differ (alike _ isFirst _ isSecond same)
    · rw [alike _ isFirst _ isSecondText same, secondType] at firstClip
      exact clip_ne_text firstClip.symm
  · rcases List.mem_pair.mp isAnother with rfl | rfl
    · rw [← alike _ isFirstText _ isSecond same, firstType] at secondClip
      exact clip_ne_text secondClip.symm
    · rw [alike _ isFirstText _ isSecondText same, secondName] at firstName
      have sameName : second.name = first.name := (List.cons.inj firstName).2
      exact differ (List.inj_on_of_nodup_map names isSecond isFirst sameName).symm

theorem group_spaces_apart (ids : (setters.map EmbeddingSetter.id).Nodup)
    (names : (setters.map EmbeddingSetter.name).Nodup) : (groupSpaces setters).Pairwise Apart := by
  rw [groupSpaces]
  apply List.pairwise_append.mpr
  refine ⟨shared_spaces_apart ids names, ?_, ?_⟩
  · rw [List.pairwise_map]
    have left : (setters.filter fun setter => !(setters.filterMap (sharedSpace setters)).any fun space =>
        space.any fun other => other.id = setter.id).Nodup := ids.of_map.filter _
    apply left.imp_of_mem
    intro first second isFirst isSecond differ setter member other isOther same
    rw [List.mem_singleton.mp member, List.mem_singleton.mp isOther] at same
    exact differ (List.inj_on_of_nodup_map ids (List.mem_of_mem_filter isFirst) (List.mem_of_mem_filter isSecond) same)
  · intro space isShared single isSingle setter member other isOther same
    obtain ⟨unpaired, isUnpaired, rfl⟩ := List.mem_map.mp isSingle
    have absent := (List.mem_filter.mp isUnpaired).2
    rw [Bool.not_eq_true', List.any_eq_false] at absent
    apply absent space isShared
    rw [List.mem_singleton.mp isOther] at same
    exact List.any_eq_true.mpr ⟨setter, member, decide_eq_true same⟩

theorem mem_group_spaces {space : List EmbeddingSetter} (isSpace : space ∈ groupSpaces setters) :
    ∀ setter ∈ space, setter ∈ setters := by
  intro setter member
  rcases List.mem_append.mp isSpace with isShared | isSingle
  · obtain ⟨first, isFirst, made⟩ := List.mem_filterMap.mp isShared
    obtain ⟨sibling, found, rfl⟩ := Option.map_eq_some_iff.mp made
    rcases List.mem_pair.mp member with rfl | rfl
    · exact isFirst
    · exact (sibling_of found).2.1
  · obtain ⟨single, isUnpaired, rfl⟩ := List.mem_map.mp isSingle
    rw [List.mem_singleton.mp member]
    exact List.mem_of_mem_filter isUnpaired

end Grouping

/-- The pairs of the profile with the setters of the space are ready, with one artifact. -/
def SpaceReady (store : Store) (profileId : Int) (setterIds : List Int) : Prop :=
  ∃ artifact, ∀ setterId ∈ setterIds, HasPair store profileId setterId .ready (some artifact)

theorem artifacts_agree (artifacts : List (Option Blob)) :
    ((artifacts.any fun artifact => artifact.isNone) ||
        (artifacts.zip artifacts.tail).any fun two => two.1 ≠ two.2) = false ↔
      ∃ artifact, ∀ other ∈ artifacts, other = some artifact := by
  induction artifacts with
  | nil => exact iff_of_true rfl ⟨[], nofun⟩
  | cons first rest ih =>
    cases rest with
    | nil =>
      cases first with
      | none =>
        apply iff_of_false
        · intro wrong
          cases wrong
        · intro ⟨artifact, same⟩
          cases same none List.mem_cons_self
      | some artifact =>
        apply iff_of_true rfl
        refine ⟨artifact, ?_⟩
        intro other member
        exact List.mem_singleton.mp member
    | cons second others =>
      have unfolded : (((first :: second :: others).any fun artifact => artifact.isNone) ||
          ((first :: second :: others).zip (second :: others)).any fun two => two.1 ≠ two.2) =
          ((first.isNone || (second :: others).any fun artifact => artifact.isNone) ||
            (decide (first ≠ second) || ((second :: others).zip others).any fun two => two.1 ≠ two.2)) := rfl
      rw [List.tail_cons] at ih ⊢
      rw [unfolded]
      constructor
      · intro agree
        rw [Bool.or_eq_false_iff, Bool.or_eq_false_iff, Bool.or_eq_false_iff, decide_eq_false_iff_not,
          not_not] at agree
        obtain ⟨artifact, same⟩ := ih.mp (Bool.or_eq_false_iff.mpr ⟨agree.1.2, agree.2.2⟩)
        refine ⟨artifact, ?_⟩
        intro other member
        rcases List.mem_cons.mp member with rfl | later
        · exact agree.2.1.trans (same second List.mem_cons_self)
        · exact same other later
      · intro ⟨artifact, same⟩
        have later := ih.mpr ⟨artifact, fun other member => same other (List.mem_cons_of_mem _ member)⟩
        rw [Bool.or_eq_false_iff] at later
        have isFirst := same first List.mem_cons_self
        have isSecond := same second (List.mem_cons_of_mem _ List.mem_cons_self)
        rw [later.1, later.2, isFirst, isSecond, decide_eq_false (not_not.mpr rfl)]
        rfl

section Settled

variable {profile : DesiredProfile} {row : ProfileRow}

open StateSnapshot

theorem pairs_eq (sound : store.Sound) (isRow : store.named profile.name = some row) (recipe : Matches row profile)
    (space : List EmbeddingSetter) :
    (loadSnapshot store desired).pairs profile space = space.map fun setter => store.pair row.id setter.id := by
  have unchanged : (loadSnapshot store desired).recipeChanged profile = false := by
    rw [recipeChanged, by_name_eq sound, isRow, Option.any_some, recipe.active, recipe.quantizer, recipe.options]
    rw [decide_eq_false (by intro wrong; cases wrong), decide_eq_false (not_not.mpr rfl),
      decide_eq_false (not_not.mpr rfl)]
    rfl
  rw [pairs, by_name_eq sound, isRow, unchanged]
  rfl

theorem settled_iff (sound : store.Sound) (isRow : store.named profile.name = some row) (recipe : Matches row profile)
    (space : List EmbeddingSetter) : (loadSnapshot store desired).settled profile space = true ↔
      SpaceReady store row.id (space.map EmbeddingSetter.id) := by
  rw [settled, pairs_eq sound isRow recipe, Bool.and_eq_true, Bool.not_eq_true', Bool.not_eq_true',
    DesiredProfile.needsArtifact, Bool.true_and, artifactInconsistent, artifacts_agree, anyNotReady,
    List.any_eq_false, List.forall_mem_map, List.map_map, SpaceReady]
  constructor
  · intro ⟨ready, artifact, same⟩
    refine ⟨artifact, ?_⟩
    rw [List.forall_mem_map]
    intro setter member
    have isReady := ready setter member
    have isArtifact := same _ (List.mem_map_of_mem member)
    rw [Function.comp_apply] at isArtifact
    obtain ⟨pair, isPair, hasArtifact⟩ := Option.bind_eq_some_iff.mp isArtifact
    rw [isPair, Option.any_some, Bool.not_eq_true', Bool.not_eq_false, decide_eq_true_iff] at isReady
    exact ⟨pair, isPair, isReady, hasArtifact⟩
  · intro ⟨artifact, ready⟩
    rw [List.forall_mem_map] at ready
    refine ⟨?_, artifact, ?_⟩
    · intro setter member
      obtain ⟨pair, isPair, isReady, _⟩ := ready setter member
      rw [isPair, Option.any_some, isReady]
      exact Bool.false_ne_true
    · intro other member
      obtain ⟨setter, isSetter, rfl⟩ := List.mem_map.mp member
      obtain ⟨pair, isPair, _, hasArtifact⟩ := ready setter isSetter
      rw [Function.comp_apply, isPair]
      exact hasArtifact

theorem bounded_sum (limit : Nat) (counts : List Nat) :
    limit ≤ (counts.map fun count => min limit count).sum ↔ limit ≤ counts.sum := by
  have lower : min limit counts.sum ≤ (counts.map fun count => min limit count).sum ∧
      (counts.map fun count => min limit count).sum ≤ counts.sum := by
    induction counts with
    | nil => exact ⟨Nat.min_le_right _ _, le_rfl⟩
    | cons first rest ih =>
      rw [List.map_cons, List.sum_cons, List.sum_cons]
      omega
  omega

def Store.vectorCount (store : Store) (space : List EmbeddingSetter) : Nat :=
  (space.map fun setter => (store.vectorsOf setter.id).length).sum

variable {space : List EmbeddingSetter}

theorem gate_iff (isSpace : ∀ setter ∈ space, setter ∈ store.loadEmbeddingSetters) :
    (loadSnapshot store desired).gate profile space = true ↔ artifactMinVectors ≤ store.vectorCount space := by
  have counts : (loadSnapshot store desired).total space =
      ((space.map fun setter => (store.vectorsOf setter.id).length).map
      fun count => min artifactMinVectors count).sum := by
    rw [total, List.map_map]
    congr 1
    apply List.map_congr_left
    intro setter member
    have listed : setter.id ∈ store.loadEmbeddingSetters.map EmbeddingSetter.id := List.mem_map_of_mem
      (isSpace setter member)
    have found : (loadSnapshot store desired).boundedCounts.lookup setter.id =
        some (store.boundedVectorCount setter.id artifactMinVectors) :=
      lookup_tabulated (fun id => store.boundedVectorCount id artifactMinVectors) _ listed
    rw [found, Option.getD_some, Store.boundedVectorCount, List.length_take]
    rfl
  rw [gate, DesiredProfile.needsArtifact, if_pos rfl, decide_eq_true_iff, counts, bounded_sum]
  rfl

/-- All setters of the space have vectors of the dimension. -/
structure OneDim (space : List EmbeddingSetter) (dim : Int) : Prop where
  head : space.head?.bind EmbeddingSetter.dim = some dim
  all : ∀ setter ∈ space, setter.dim = some dim

/-- A space is built when it has one dimension, is not settled and has enough vectors. -/
theorem space_build_some {build : SpaceBuild} :
    (loadSnapshot store desired).spaceBuild profile space = some build ↔ ∃ dim, OneDim space dim ∧
      (loadSnapshot store desired).settled profile space = false ∧
      (loadSnapshot store desired).gate profile space = true ∧
      build = { profileName := profile.name, needsArtifact := true, setterIds := space.map EmbeddingSetter.id, dim,
                resume := resumable true dim ((loadSnapshot store desired).pairs profile space) } := by
  rw [spaceBuild, Option.bind_eq_some_iff]
  apply exists_congr
  intro dim
  constructor
  · intro ⟨head, made⟩
    split at made
    · cases made
    rename_i same
    rw [Bool.not_eq_true, List.any_eq_false] at same
    split at made
    · cases made
    rename_i unsettled
    split at made
    · rename_i passes
      rw [Option.some.injEq] at made
      refine ⟨⟨head, ?_⟩, Bool.eq_false_of_not_eq_true unsettled, passes, made.symm⟩
      intro setter member
      have alike := same setter member
      rw [decide_eq_true_iff, not_not] at alike
      exact alike
    · cases made
  · intro ⟨oneDim, unsettled, passes, made⟩
    have same : (space.any fun setter => setter.dim ≠ some dim) = false := by
      rw [List.any_eq_false]
      intro setter member
      rw [decide_eq_true_iff, not_not]
      exact oneDim.all setter member
    refine ⟨oneDim.head, ?_⟩
    rw [same, if_neg Bool.false_ne_true, unsettled, if_neg Bool.false_ne_true, if_pos passes, made]
    rfl

theorem resumable_frozen (sound : store.Sound) (isRow : store.named profile.name = some row)
    (recipe : Matches row profile) {dim : Int} (inhabited : space ≠ [])
    (resumed : resumable true dim ((loadSnapshot store desired).pairs profile space) = true) :
    ∃ artifact, ∀ setterId ∈ space.map EmbeddingSetter.id,
      HasPair store row.id setterId .building (some artifact) := by
  rw [resumable, pairs_eq sound isRow recipe, Bool.and_eq_true, List.all_eq_true, List.all_eq_true,
    List.forall_mem_map, List.forall_mem_map] at resumed
  obtain ⟨building, shared⟩ := resumed
  have each : ∀ setter ∈ space, ∃ pair artifact, store.pair row.id setter.id = some pair ∧ pair.state = .building ∧
      pair.artifact = some artifact := by
    intro setter member
    have isBuilding := building setter member
    obtain ⟨pair, isPair, holds⟩ := (Option.any_eq_true _ _).mp isBuilding
    rw [Bool.not_true, Bool.or_false, Bool.and_eq_true, Bool.and_eq_true, decide_eq_true_iff] at holds
    obtain ⟨artifact, isArtifact⟩ := Option.isSome_iff_exists.mp holds.2
    exact ⟨pair, artifact, isPair, holds.1.1, isArtifact⟩
  obtain ⟨first, rest, rfl⟩ := List.exists_cons_of_ne_nil inhabited
  obtain ⟨firstPair, artifact, isFirst, _, hasArtifact⟩ := each first List.mem_cons_self
  refine ⟨artifact, ?_⟩
  rw [List.forall_mem_map]
  intro setter member
  obtain ⟨pair, other, isPair, isBuilding, hasOther⟩ := each setter member
  have same := shared setter member
  rw [List.map_cons, List.head?_cons, Option.all_some, isFirst, isPair, decide_eq_true_iff] at same
  refine ⟨pair, isPair, isBuilding, ?_⟩
  rw [← hasArtifact]
  exact congrArg Prod.fst (Option.some.inj same)

end Settled

end Panoptikon.VectorQuants
