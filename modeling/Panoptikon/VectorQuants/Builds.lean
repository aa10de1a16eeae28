import Panoptikon.VectorQuants.Planning

/-!
# The data transactions

The write operations of `db/vector_quants.rs` that the reconcile job drives: a
build freezes an artifact, quantizes the vectors of its setters chunk by chunk and
is finished; a removal deletes the codes chunk by chunk and drops the profile. Each
operation is one transaction, which leaves the tables alone when it fails.
-/

namespace Panoptikon.VectorQuants

open Foundation Foundation.KeyedSort

def backfillChunkRows : Nat := 5000

def deleteChunkRows : Nat := 20000

/-- The int8 codec: the scale of all vectors of a space as an artifact, the scale read
back from one, and the codes of a vector. -/
structure Int8Codec where
  Scale : Type
  scaleArtifact : List Blob → Blob
  artifactScale : Blob → Option Scale
  quantizeInt8 : Blob → Scale → Blob

def mismatchedErr : ApiError := .internal "Setter has vectors of mismatched dimensionality"

namespace Store

/-- `compute_int8_scale_artifact`. -/
def computeInt8ScaleArtifact (codec : Int8Codec) (setterIds : List Int) (dim : Int) (store : Store) :
    Except ApiError (Option Blob) :=
  let blobs := (setterIds.flatMap store.vectorsOf).map VectorRow.embedding
  if dim < 0 then .error (.internal "Invalid dimension")
  else if blobs.any fun blob => (blob.length : Int) ≠ dim * 4 then .error mismatchedErr
  else if blobs.isEmpty then .ok none
  else .ok (some (codec.scaleArtifact blobs))

def updatePair (profileId setterId : Int) (change : CoverageRow → CoverageRow) (store : Store) : Store :=
  { store with coverage := updateWhere (fun pair => pair.key = (profileId, setterId)) change store.coverage }

def freeze (artifact : Option Blob) (rev dim : Int) (pair : CoverageRow) : CoverageRow :=
  { pair with artifact, artifactRev := rev, dim := some dim, state := .building, nAtArtifact := none }

def maxRev (profileId : Int) (setterIds : List Int) (store : Store) : Except ApiError Int :=
  setterIds.foldlM (fun highest setterId =>
    match store.pair profileId setterId with
    | none => .error writeErr
    | some pair => .ok (max highest pair.artifactRev)) 0

def startSpaceBuild (profileId : Int) (setterIds : List Int) (artifact : Option Blob) (dim : Int) (store : Store) :
    Except ApiError (Int × Store) := do
  let highest ← store.maxRev profileId setterIds
  let rev := highest + 1
  let started ← setterIds.foldlM (fun reached setterId =>
    if (reached.pair profileId setterId).isNone then .error (.internal "Vector quant coverage pair missing")
    else .ok (reached.updatePair profileId setterId (freeze artifact rev dim))) store
  return (rev, started)

/-- The vector has a code of the pair's revision. -/
def quantized (store : Store) (pair : CoverageRow) (vector : VectorRow) : Bool :=
  store.quants.any fun quant => quant.key = (vector.id, pair.profileId) && quant.rev = pair.artifactRev

/-- `BACKFILL_CHUNK_SQL`, for the pair its first table has. -/
def outstanding (store : Store) (pair : CoverageRow) (afterId : Int) : List VectorRow :=
  sortByKey VectorRow.id ((store.vectorsOf pair.setterId).filter fun vector =>
    afterId < vector.id && (pair.dim.any fun dim => (vector.embedding.length : Int) = dim * 4) &&
      !store.quantized pair vector)

def buildingArtifact (store : Store) (profileId setterId : Int) : Option (CoverageRow × Blob) :=
  (store.pair profileId setterId).bind fun pair =>
    if pair.state = .building then pair.artifact.map fun artifact => (pair, artifact) else none

structure ChunkProgress where
  written : Nat
  cursor : Int
  store : Store

def fillVector (codec : Int8Codec) (pair : CoverageRow) (artifact : Blob) (progress : ChunkProgress)
    (vector : VectorRow) : Except ApiError ChunkProgress :=
  match codec.artifactScale artifact with
  | none => .error (.internal "Invalid vector quant scale artifact")
  | some scale => .ok
      { written := progress.written + 1
        cursor := max progress.cursor vector.id
        store := progress.store.upsertQuant
          { id := vector.id, profileId := pair.profileId, rev := pair.artifactRev,
            quant := codec.quantizeInt8 vector.embedding scale } }

def backfillChunk (codec : Int8Codec) (profileId setterId : Int) (limit : Nat) (afterId : Int) (store : Store) :
    Except ApiError ChunkProgress :=
  match store.buildingArtifact profileId setterId with
  | none => .ok ⟨0, afterId, store⟩
  | some (pair, artifact) =>
      ((store.outstanding pair afterId).take limit).foldlM (fillVector codec pair artifact) ⟨0, afterId, store⟩

def countDimMismatched (store : Store) (pair : CoverageRow) : Nat :=
  (store.vectorsOf pair.setterId).countP fun vector =>
    pair.dim.any fun dim => (vector.embedding.length : Int) ≠ dim * 4

def markReady (total : Nat) (pair : CoverageRow) : CoverageRow :=
  { pair with state := .ready, nAtArtifact := some total }

def finishPair (profileId : Int) (store : Store) (setterId : Int) : Except ApiError Store :=
  match (store.pair profileId setterId).filter fun pair => pair.state = .building with
  | none => .error (.internal "Vector quant pair no longer building at finish")
  | some pair =>
      let total := (store.vectorsOf setterId).length
      let remaining := (store.vectorsOf setterId).countP fun vector => !store.quantized pair vector
      if 0 < remaining then
        if 0 < store.countDimMismatched pair then .error mismatchedErr
        else .error (.internal "Vector quant backfill incomplete at finish")
      else .ok (store.updatePair profileId setterId (markReady total))

def finishSpaceBuild (profileId : Int) (setterIds : List Int) (store : Store) : Except ApiError Store :=
  setterIds.foldlM (finishPair profileId) store

/-- Which of the rows the limit picks is up to the engine; here it is the first ones. -/
def deleteQuantsChunk (profileId : Int) (limit : Nat) (store : Store) : Nat × Store :=
  let chosen := (store.quants.filter fun quant => quant.profileId = profileId).take limit
  (chosen.length, { store with quants := store.quants.filter fun quant => !chosen.any fun gone => gone.key = quant.key })

def dropProfile (profileId : Int) (store : Store) : Except ApiError Store :=
  if store.profileHasQuants profileId then
    .error (.internal "Refusing to drop vector quant profile with remaining quants")
  else .ok (store.deleteProfiles fun row => row.id = profileId)

end Store

open Store

variable {store : Store}

theorem row_update_pair {profileId setterId : Int} {change : CoverageRow → CoverageRow}
    (same : ∀ pair, (change pair).key = pair.key) (otherProfile otherSetter : Int) :
    (store.updatePair profileId setterId change).pair otherProfile otherSetter =
      if (otherProfile, otherSetter) = (profileId, setterId) then (store.pair otherProfile otherSetter).map change
      else store.pair otherProfile otherSetter := by
  have updated : (store.updatePair profileId setterId change).pair otherProfile otherSetter =
      (store.pair otherProfile otherSetter).map fun pair =>
        if decide (pair.key = (profileId, setterId)) then change pair else pair := row_with_update same
  rw [updated]
  cases found : store.pair otherProfile otherSetter with
  | none =>
    rw [Option.map_none, Option.map_none, ite_self]
  | some pair =>
    have isKey : pair.key = (otherProfile, otherSetter) := (mem_of_row_with found).2
    rw [Option.map_some, Option.map_some, isKey]
    by_cases here : (otherProfile, otherSetter) = (profileId, setterId)
    · rw [if_pos (decide_eq_true here), if_pos here]
    · rw [if_neg (by rw [decide_eq_false here]; exact Bool.false_ne_true), if_neg here]

/-- Only codes change, and the pairs touched. -/
structure Within (Touched : Int → Int → Prop) (before after : Store) : Prop where
  sound : before.Sound → after.Sound
  setters : after.setters = before.setters
  vectors : after.vectors = before.vectors
  profiles : after.profiles = before.profiles
  pairs : ∀ profileId setterId, ¬Touched profileId setterId →
    after.pair profileId setterId = before.pair profileId setterId

/-- The pairs of a profile with the setters of a space. -/
def InSpace (profileId : Int) (setterIds : List Int) (otherProfile otherSetter : Int) : Prop :=
  otherProfile = profileId ∧ otherSetter ∈ setterIds

variable {limit : Nat}

section Framing

variable {Touched : Int → Int → Prop} {profileId : Int} {setterIds : List Int}

theorem Within.refl (store : Store) : Within Touched store store := ⟨id, rfl, rfl, rfl, fun _ _ _ => rfl⟩

theorem Within.trans {first second third : Store} (former : Within Touched first second)
    (latter : Within Touched second third) : Within Touched first third where
  sound := fun sound => latter.sound (former.sound sound)
  setters := latter.setters.trans former.setters
  vectors := latter.vectors.trans former.vectors
  profiles := latter.profiles.trans former.profiles
  pairs := fun profileId setterId outside =>
    (latter.pairs profileId setterId outside).trans (former.pairs profileId setterId outside)

theorem Within.mono {Wider : Int → Int → Prop} {before after : Store} (within : Within Touched before after)
    (wider : ∀ profileId setterId, Touched profileId setterId → Wider profileId setterId) :
    Within Wider before after where
  sound := within.sound
  setters := within.setters
  vectors := within.vectors
  profiles := within.profiles
  pairs := fun profileId setterId outside =>
    within.pairs profileId setterId fun inside => outside (wider profileId setterId inside)

theorem InSpace.mono {wider : List Int} (subset : setterIds ⊆ wider) (otherProfile otherSetter : Int)
    (inside : InSpace profileId setterIds otherProfile otherSetter) :
    InSpace profileId wider otherProfile otherSetter :=
  ⟨inside.1, subset inside.2⟩

theorem update_pair_within {setterId : Int} {change : CoverageRow → CoverageRow}
    (same : ∀ pair, (change pair).key = pair.key) (member : setterId ∈ setterIds) :
    Within (InSpace profileId setterIds) store (store.updatePair profileId setterId change) where
  sound := fun sound => sound.update_pairs _ change same
  setters := rfl
  vectors := rfl
  profiles := rfl
  pairs := by
    intro otherProfile otherSetter outside
    rw [row_update_pair same, if_neg]
    intro isKey
    rw [Prod.mk.injEq] at isKey
    apply outside
    rw [isKey.1, isKey.2]
    exact ⟨rfl, member⟩

/-- Only codes change. -/
structure OnlyCodes (before after : Store) : Prop where
  setters : after.setters = before.setters
  vectors : after.vectors = before.vectors
  profiles : after.profiles = before.profiles
  coverage : after.coverage = before.coverage

theorem OnlyCodes.refl (store : Store) : OnlyCodes store store := ⟨rfl, rfl, rfl, rfl⟩

theorem OnlyCodes.trans {first second third : Store} (former : OnlyCodes first second)
    (latter : OnlyCodes second third) : OnlyCodes first third where
  setters := latter.setters.trans former.setters
  vectors := latter.vectors.trans former.vectors
  profiles := latter.profiles.trans former.profiles
  coverage := latter.coverage.trans former.coverage

theorem OnlyCodes.within {before after : Store} (same : OnlyCodes before after)
    (sound : before.Sound → after.Sound) : Within Touched before after where
  sound := sound
  setters := same.setters
  vectors := same.vectors
  profiles := same.profiles
  pairs := fun _ _ _ => by rw [Store.pair, same.coverage, Store.pair]

/-- The pair is in the state, with the artifact. -/
def HasPair (store : Store) (profileId setterId : Int) (state : PairState) (artifact : Option Blob) : Prop :=
  ∃ pair, store.pair profileId setterId = some pair ∧ pair.state = state ∧ pair.artifact = artifact

variable {artifact : Option Blob} {after : Store}

theorem start_each {rev dim : Int}
    (started : setterIds.foldlM (fun reached setterId =>
      if (reached.pair profileId setterId).isNone then
        Except.error (ApiError.internal "Vector quant coverage pair missing")
      else .ok (reached.updatePair profileId setterId (freeze artifact rev dim))) store = .ok after) :
    Within (InSpace profileId setterIds) store after ∧
      ∀ setterId ∈ setterIds, HasPair after profileId setterId .building artifact := by
  induction setterIds generalizing store with
  | nil =>
    cases started
    exact ⟨Within.refl _, nofun⟩
  | cons first rest ih =>
    rw [List.foldlM_cons] at started
    cases found : store.pair profileId first with
    | none =>
      rw [found] at started
      cases started
    | some pair =>
      rw [found] at started
      have same : ∀ pair, (freeze artifact rev dim pair).key = pair.key := fun _ => rfl
      obtain ⟨within, others⟩ := ih started
      refine ⟨(update_pair_within same List.mem_cons_self).trans
        (within.mono (InSpace.mono (List.subset_cons_self _ _))), ?_⟩
      intro setterId member
      by_cases later : setterId ∈ rest
      · exact others setterId later
      · cases List.mem_cons.mp member with
        | inr isLater => exact absurd isLater later
        | inl isFirst =>
          refine ⟨freeze artifact rev dim pair, ?_, rfl, rfl⟩
          rw [within.pairs _ _ fun inside => later inside.2, row_update_pair same, isFirst, if_pos rfl, found]
          rfl

theorem start_space_build_freezes {rev dim : Int}
    (started : store.startSpaceBuild profileId setterIds artifact dim = .ok (rev, after)) :
    Within (InSpace profileId setterIds) store after ∧
      ∀ setterId ∈ setterIds, HasPair after profileId setterId .building artifact := by
  obtain ⟨highest, _, rest⟩ := bind_ok started
  obtain ⟨reached, updates, same⟩ := bind_ok rest
  cases same
  exact start_each updates

theorem finish_pair_within {setterId : Int} (finished : store.finishPair profileId setterId = .ok after)
    (member : setterId ∈ setterIds) : Within (InSpace profileId setterIds) store after ∧ ∃ pair,
      store.pair profileId setterId = some pair ∧ HasPair after profileId setterId .ready pair.artifact := by
  unfold finishPair at finished
  cases found : (store.pair profileId setterId).filter fun pair => pair.state = .building with
  | none =>
    rw [found] at finished
    cases finished
  | some pair =>
    rw [found] at finished
    dsimp only at finished
    have isPair := (Option.filter_eq_some_iff.mp found).1
    split at finished
    · split at finished
      · cases finished
      · cases finished
    · cases finished
      refine ⟨update_pair_within (fun _ => rfl) member, pair, isPair,
        markReady (store.vectorsOf setterId).length pair, ?_, rfl, rfl⟩
      have same : ∀ pair, (markReady (store.vectorsOf setterId).length pair).key = pair.key := fun _ => rfl
      rw [row_update_pair same, if_pos rfl, isPair]
      rfl

section

variable (finished : store.finishSpaceBuild profileId setterIds = .ok after)

include finished

theorem finish_within :
    Within (InSpace profileId setterIds) store after := by
  rw [finishSpaceBuild] at finished
  induction setterIds generalizing store with
  | nil =>
    cases finished
    exact Within.refl _
  | cons first rest ih =>
    rw [List.foldlM_cons] at finished
    obtain ⟨next, one, others⟩ := bind_ok finished
    exact (finish_pair_within one List.mem_cons_self).1.trans
      ((ih others).mono (InSpace.mono (List.subset_cons_self _ _)))

theorem finish_space_build_readies
    (frozen : ∀ setterId ∈ setterIds, ∃ state, HasPair store profileId setterId state artifact) :
    ∀ setterId ∈ setterIds, HasPair after profileId setterId .ready artifact := by
  rw [finishSpaceBuild] at finished
  induction setterIds generalizing store with
  | nil =>
    exact nofun
  | cons first rest ih =>
    rw [List.foldlM_cons] at finished
    obtain ⟨next, one, others⟩ := bind_ok finished
    obtain ⟨state, pair, isPair, _, isArtifact⟩ := frozen first List.mem_cons_self
    obtain ⟨within, other, isOther, ready⟩ := finish_pair_within one (List.mem_singleton_self first)
    rw [isPair, Option.some.injEq] at isOther
    rw [← isOther, isArtifact] at ready
    have later : ∀ setterId ∈ rest, ∃ state, HasPair next profileId setterId state artifact := by
      intro setterId member
      by_cases isFirst : setterId = first
      · rw [isFirst]
        exact ⟨.ready, ready⟩
      · obtain ⟨was, held, isHeld, rest⟩ := frozen setterId (List.mem_cons_of_mem _ member)
        refine ⟨was, held, ?_, rest⟩
        rw [within.pairs _ _ fun inside => isFirst (List.mem_singleton.mp inside.2)]
        exact isHeld
    intro setterId member
    by_cases isLater : setterId ∈ rest
    · exact ih others later setterId isLater
    · have isFirst := (List.mem_cons.mp member).resolve_right isLater
      rw [isFirst] at isLater ⊢
      obtain ⟨held, isHeld, rest⟩ := ready
      refine ⟨held, ?_, rest⟩
      rw [(finish_within others).pairs _ _ fun inside => isLater inside.2]
      exact isHeld

end

/-- What the chunk of vectors has done on its way. -/
structure Filled (vectors : List VectorRow) (before after : ChunkProgress) : Prop where
  only : OnlyCodes before.store after.store
  written : after.written = before.written + vectors.length
  advances : before.cursor ≤ after.cursor
  passed : ∀ vector ∈ vectors, vector.id ≤ after.cursor

variable {codec : Int8Codec} {pair : CoverageRow} {artifact : Blob}

theorem fill_each {vectors : List VectorRow} {before after : ChunkProgress}
    (filled : vectors.foldlM (fillVector codec pair artifact) before = .ok after) : Filled vectors before after ∧
      ((∀ vector ∈ vectors, vector ∈ before.store.vectors) →
        pair.profileId ∈ before.store.profiles.map ProfileRow.id → before.store.Sound → after.store.Sound) := by
  induction vectors generalizing before with
  | nil =>
    cases filled
    exact ⟨⟨OnlyCodes.refl _, rfl, le_rfl, nofun⟩,
      fun _ _ sound => sound⟩
  | cons first rest ih =>
    rw [List.foldlM_cons] at filled
    obtain ⟨next, one, others⟩ := bind_ok filled
    unfold fillVector at one
    split at one
    · cases one
    cases one
    obtain ⟨done, sound⟩ := ih others
    have advanced : max before.cursor first.id ≤ after.cursor := done.advances
    have only : OnlyCodes before.store after.store :=
      ⟨done.only.setters, done.only.vectors, done.only.profiles, done.only.coverage⟩
    refine ⟨⟨only, ?_, le_trans (le_max_left _ _) advanced, ?_⟩, ?_⟩
    · rw [done.written, List.length_cons]
      dsimp only
      omega
    · intro vector member
      rcases List.mem_cons.mp member with rfl | later
      · exact le_trans (le_max_right _ _) advanced
      · exact done.passed vector later
    · intro known profile beforeSound
      apply sound fun vector member => known vector (List.mem_cons_of_mem _ member)
      · exact profile
      · exact beforeSound.upsert_quant profile (List.mem_map_of_mem (known first List.mem_cons_self))

/-- The vectors that the cursor has not passed. -/
def ahead (store : Store) (cursor : Int) : Nat := (store.vectors.filter fun vector => cursor < vector.id).length

theorem mem_outstanding {afterId : Int} {vector : VectorRow} (member : vector ∈ store.outstanding pair afterId) :
    vector ∈ store.vectors ∧ afterId < vector.id := by
  have found := List.mem_filter.mp ((sort_perm _ _).mem_iff.mp member)
  rw [Bool.and_eq_true, Bool.and_eq_true, decide_eq_true_iff] at found
  exact ⟨List.mem_of_mem_filter found.1, found.2.1.1⟩

theorem backfill_chunk_fills {setterId afterId : Int} {progress : ChunkProgress}
    (chunk : store.backfillChunk codec profileId setterId limit afterId = .ok progress) :
    OnlyCodes store progress.store ∧ (store.Sound → progress.store.Sound) ∧
      (progress.written ≠ 0 → ahead progress.store progress.cursor < ahead store afterId) := by
  unfold backfillChunk at chunk
  cases found : store.buildingArtifact profileId setterId with
  | none =>
    rw [found] at chunk
    cases chunk
    exact ⟨OnlyCodes.refl _, id, fun wrote => absurd rfl wrote⟩
  | some building =>
    rw [found] at chunk
    obtain ⟨filled, sound⟩ := fill_each chunk
    have known : ∀ vector ∈ (store.outstanding building.1 afterId).take limit,
        vector ∈ store.vectors ∧ afterId < vector.id :=
      fun vector member => mem_outstanding (List.mem_of_mem_take member)
    refine ⟨filled.only, ?_, ?_⟩
    · intro beforeSound
      apply sound fun vector member => (known vector member).1
      · obtain ⟨pair, isPair, isBuilding⟩ := Option.bind_eq_some_iff.mp found
        split at isBuilding
        · obtain ⟨_, _, rfl⟩ := Option.map_eq_some_iff.mp isBuilding
          exact beforeSound.pairProfiles pair (mem_of_row_with isPair).1
        · cases isBuilding
      · exact beforeSound
    · intro wrote
      rw [ahead, filled.only.vectors, ahead]
      have some : (store.outstanding building.1 afterId).take limit ≠ [] := by
        intro none
        rw [none] at filled
        exact wrote filled.written
      obtain ⟨vector, member⟩ := List.exists_mem_of_ne_nil _ some
      have advances : afterId ≤ progress.cursor := filled.advances
      have again : store.vectors.filter (fun vector => decide (progress.cursor < vector.id)) =
          (store.vectors.filter fun vector => afterId < vector.id).filter fun vector =>
            progress.cursor < vector.id := by
        rw [List.filter_filter]
        apply List.filter_congr
        intro other _
        rw [Bool.eq_iff_iff, Bool.and_eq_true, decide_eq_true_iff, decide_eq_true_iff]
        exact ⟨fun later => ⟨later, lt_of_le_of_lt advances later⟩, fun both => both.1⟩
      rw [again, List.length_filter_lt_length_iff_exists]
      refine ⟨vector, List.mem_filter.mpr ⟨(known vector member).1, decide_eq_true (known vector member).2⟩, ?_⟩
      rw [decide_eq_true_iff, not_lt]
      exact filled.passed vector member

end Framing

def codesOf (store : Store) (profileId : Int) : List QuantRow :=
  store.quants.filter fun quant => quant.profileId = profileId

theorem delete_chunk_only (profileId : Int) (limit : Nat) :
    OnlyCodes store (store.deleteQuantsChunk profileId limit).2 := ⟨rfl, rfl, rfl, rfl⟩

theorem delete_chunk_shrinks {profileId : Int} (deleted : (store.deleteQuantsChunk profileId limit).1 ≠ 0) :
    (codesOf (store.deleteQuantsChunk profileId limit).2 profileId).length < (codesOf store profileId).length := by
  have again : codesOf (store.deleteQuantsChunk profileId limit).2 profileId =
      (codesOf store profileId).filter fun quant =>
        !((codesOf store profileId).take limit).any fun gone => gone.key = quant.key := by
    rw [codesOf, deleteQuantsChunk, List.filter_filter, codesOf, List.filter_filter]
    apply List.filter_congr
    intro quant _
    rw [Bool.and_comm]
  rw [again, List.length_filter_lt_length_iff_exists]
  have some : (codesOf store profileId).take limit ≠ [] := List.ne_nil_of_length_pos (Nat.pos_of_ne_zero deleted)
  obtain ⟨gone, member⟩ := List.exists_mem_of_ne_nil _ some
  refine ⟨gone, List.mem_of_mem_take member, ?_⟩
  have found : (((codesOf store profileId).take limit).any fun other => other.key = gone.key) = true :=
    List.any_eq_true.mpr ⟨gone, member, decide_eq_true rfl⟩
  rw [found]
  exact Bool.false_ne_true

theorem delete_chunk_done {profileId : Int} (some : limit ≠ 0)
    (deleted : (store.deleteQuantsChunk profileId limit).1 = 0) :
    (store.deleteQuantsChunk profileId limit).2.profileHasQuants profileId = false := by
  have none : (codesOf store profileId).take limit = [] := List.eq_nil_of_length_eq_zero deleted
  rw [List.take_eq_nil_iff] at none
  have empty : codesOf store profileId = [] := none.resolve_left some
  rw [profileHasQuants, List.any_eq_false]
  intro quant member isCode
  have held : quant ∈ codesOf store profileId := List.mem_filter.mpr ⟨List.mem_of_mem_filter member, isCode⟩
  rw [empty] at held
  exact List.not_mem_nil held

theorem pair_delete_profile (sound : store.Sound) {profileId otherProfile : Int} (other : otherProfile ≠ profileId)
    (setterId : Int) : (store.deleteProfiles fun row => row.id = profileId).pair otherProfile setterId =
      store.pair otherProfile setterId := by
  have filtered : (store.deleteProfiles fun row => row.id = profileId).pair otherProfile setterId =
      (store.pair otherProfile setterId).filter fun pair =>
        !store.goesWith (fun row => row.id = profileId) pair.profileId := row_with_filter sound.pairs _
  rw [filtered]
  cases found : store.pair otherProfile setterId with
  | none => rfl
  | some pair =>
    have stays : store.goesWith (fun row => row.id = profileId) pair.profileId = false := by
      have isProfile : pair.profileId = otherProfile := congrArg Prod.fst (mem_of_row_with found).2
      rw [goesWith, List.any_eq_false]
      intro row _ chosen
      rw [Bool.and_eq_true, decide_eq_true_iff, decide_eq_true_iff, isProfile] at chosen
      exact other (chosen.2.symm.trans chosen.1)
    rw [Option.filter_some, stays]
    rfl

end Panoptikon.VectorQuants
