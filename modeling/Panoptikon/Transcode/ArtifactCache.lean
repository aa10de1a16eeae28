import Mathlib.Data.List.Lex
import Mathlib.Data.Prod.Lex
import Mathlib.Data.Char
import Mathlib.Algebra.Order.Group.Unbundled.Int
import Mathlib.Algebra.Ring.Int.Defs
import Panoptikon.Foundation.ByteText
import Panoptikon.Foundation.Eviction
import Panoptikon.Foundation.Sorted

/-!
# The transcode artifact cache

The rows of `media_tools/transcode/cache.rs` with the files and the share directories
beside them. A row is only ever written for a published file, so its size is the length
of a file. The deletions of an eviction pass are listed in their order.
-/

namespace Panoptikon.Transcode

open Foundation

/-- A row of `artifacts`; the key is its primary key. -/
structure Artifact where
  key : Text
  sourceSha256 : Text
  paramsHash : Text
  preset : Text
  fileName : Text
  mimeType : Text
  sizeBytes : Int
  transcoderVersion : Int
  createdAt : Text
  lastAccess : Text
  hitCount : Int
  pinned : Int
  sha256 : Option Text
  downloadName : Option Text
  isLength : 0 ≤ sizeBytes

/-- What lies in the cache directory: the artifact files, and `share/<key>`. -/
inductive Entry where
  | file (name : Text)
  | share (key : Text)
deriving DecidableEq

/-- The rows in the order of their insertion, the keys with a verdict, and the directory. -/
structure TranscodeCache where
  artifacts : List Artifact
  failures : List Text
  entries : List Entry
  keysDistinct : (artifacts.map Artifact.key).Nodup

namespace TranscodeCache

/-- Both removals are best effort; the file system may refuse either. -/
def remove (refused : Entry → Bool) (entry : Entry) (cache : TranscodeCache) : TranscodeCache :=
  if refused entry then cache
  else { cache with entries := cache.entries.filter fun other => other ≠ entry }

def deleteRow (refused : Entry → Bool) (key : Text) (cache : TranscodeCache) : TranscodeCache :=
  let swept := cache.remove refused (.share key)
  { swept with
    artifacts := swept.artifacts.filter fun artifact => artifact.key ≠ key
    keysDistinct := swept.keysDistinct.sublist (List.filter_sublist.map Artifact.key) }

/-- File first, then the row. -/
def removeArtifact (refused : Entry → Bool) (artifact : Artifact) (cache : TranscodeCache) : TranscodeCache :=
  (cache.remove refused (.file artifact.fileName)).deleteRow refused artifact.key

def clearFailure (key : Text) (cache : TranscodeCache) : TranscodeCache :=
  { cache with failures := cache.failures.filter fun other => other ≠ key }

/-- The artifacts that are not pinned, and the verdicts when they are included. -/
def clear (refused : Entry → Bool) (includeFailures : Bool) (cache : TranscodeCache) : TranscodeCache × Nat :=
  let rows := cache.artifacts.filter fun artifact => artifact.pinned = 0
  let emptied := rows.foldl (fun cache artifact => cache.removeArtifact refused artifact) cache
  (if includeFailures then { emptied with failures := [] } else emptied, rows.length)

variable (refused : Entry → Bool) (cache : TranscodeCache)

@[simp] theorem remove_artifacts (entry : Entry) : (cache.remove refused entry).artifacts = cache.artifacts := by
  unfold remove
  split <;> rfl

@[simp] theorem delete_row_artifacts (key : Text) :
    (cache.deleteRow refused key).artifacts = cache.artifacts.filter fun artifact => artifact.key ≠ key := by
  unfold deleteRow
  dsimp only
  rw [remove_artifacts]

@[simp] theorem remove_artifact_artifacts (artifact : Artifact) :
    (cache.removeArtifact refused artifact).artifacts =
      cache.artifacts.filter fun other => other.key ≠ artifact.key := by
  rw [removeArtifact, delete_row_artifacts, remove_artifacts]

theorem mem_remove {entry other : Entry} (differs : entry ≠ other) :
    entry ∈ (cache.remove refused other).entries ↔ entry ∈ cache.entries := by
  unfold remove
  split
  · rfl
  · dsimp only
    rw [List.mem_filter, decide_eq_true_iff, and_iff_left differs]

theorem file_remove_artifact {name : Text} {artifact : Artifact} (differs : name ≠ artifact.fileName) :
    Entry.file name ∈ (cache.removeArtifact refused artifact).entries ↔ Entry.file name ∈ cache.entries := by
  have noShare : Entry.file name ≠ .share artifact.key := by
    intro same
    cases same
  have otherFile : Entry.file name ≠ .file artifact.fileName := by
    intro same
    exact differs (Entry.file.inj same)
  have entries (swept : TranscodeCache) (key : Text) :
      (swept.deleteRow refused key).entries = (swept.remove refused (.share key)).entries := rfl
  rw [removeArtifact, entries, mem_remove refused _ noShare, mem_remove refused _ otherFile]

end TranscodeCache

/-- `HOT_HIT_COUNT` -/
def hotHitCount : Int := 8

/-- `EVICT_BATCH` -/
def evictBatch : Nat := 32

def Artifact.isHot (hotSince : Text) (artifact : Artifact) : Bool :=
  hotHitCount ≤ artifact.hitCount && hotSince < artifact.lastAccess

def Artifact.Evictable (protect : Option Text) (artifact : Artifact) : Prop :=
  artifact.pinned = 0 ∧ ∀ key ∈ protect, artifact.key ≠ key

instance (protect : Option Text) : DecidablePred (Artifact.Evictable protect) := fun artifact =>
  inferInstanceAs (Decidable (artifact.pinned = 0 ∧ ∀ key ∈ protect, artifact.key ≠ key))

/-- `size_bytes.max(0) as u64` -/
def Artifact.bytes (artifact : Artifact) : Nat := (max artifact.sizeBytes 0).toNat

/-- The sum of the sizes stays far below the largest signed integer. -/
def usedBytes (artifacts : List Artifact) : Nat := (max (artifacts.map Artifact.sizeBytes).sum 0).toNat

/-- One call of `evict`: the budget it reads, the start of the hot window and the protected key. -/
structure EvictionPass where
  budget : Nat
  hotSince : Text
  protect : Option Text

namespace EvictionPass

variable (pass : EvictionPass)

def listed (skipHot : Bool) (artifact : Artifact) : Bool :=
  decide (artifact.Evictable pass.protect) && !(skipHot && artifact.isHot pass.hotSince)

/-- Rows of one time come in the order of their insertion, as the index lists them. -/
def evictCandidates (skipHot : Bool) (artifacts : List Artifact) : List Artifact :=
  (KeyedSort.sortByKey Artifact.lastAccess (artifacts.filter (pass.listed skipHot))).take evictBatch

structure Swept where
  cache : TranscodeCache
  used : Nat
  deleted : List Artifact

/-- The victims of one round, until the total is within the budget. -/
def evictRound (refused : Entry → Bool) : List Artifact → Nat → TranscodeCache → Swept
  | [], used, cache => ⟨cache, used, []⟩
  | victim :: later, used, cache =>
      if used ≤ pass.budget then ⟨cache, used, []⟩
      else
        let rest := evictRound refused later (used - victim.bytes) (cache.removeArtifact refused victim)
        { rest with deleted := victim :: rest.deleted }

theorem mem_evict_candidates {skipHot : Bool} {artifacts : List Artifact} {artifact : Artifact}
    (member : artifact ∈ pass.evictCandidates skipHot artifacts) :
    artifact ∈ artifacts ∧ pass.listed skipHot artifact = true := by
  have sorted := List.mem_of_mem_take member
  rw [(KeyedSort.sort_perm Artifact.lastAccess _).mem_iff] at sorted
  exact List.mem_filter.mp sorted

theorem evict_round_length (refused : Entry → Bool) (victims : List Artifact) (used : Nat) (cache : TranscodeCache) :
    (pass.evictRound refused victims used cache).cache.artifacts.length ≤ cache.artifacts.length := by
  induction victims generalizing used cache with
  | nil => exact Nat.le_refl _
  | cons victim later ih =>
    rw [evictRound]
    split
    · exact Nat.le_refl _
    · apply Nat.le_trans (ih _ _)
      rw [TranscodeCache.remove_artifact_artifacts]
      exact List.length_filter_le _ _

theorem evict_round_shorter (refused : Entry → Bool) {victim : Artifact} {later : List Artifact} {used : Nat}
    {cache : TranscodeCache} (listed : victim ∈ cache.artifacts) (above : ¬used ≤ pass.budget) :
    (pass.evictRound refused (victim :: later) used cache).cache.artifacts.length < cache.artifacts.length := by
  rw [evictRound, if_neg above]
  apply Nat.lt_of_le_of_lt (evict_round_length pass refused later _ _)
  rw [TranscodeCache.remove_artifact_artifacts]
  apply List.length_filter_lt_length_iff_exists.mpr
  exact ⟨victim, listed, by simp⟩

/-- The rounds: the hot artifacts are spared until nothing else is left. -/
def evictLoop (refused : Entry → Bool) (skipHot : Bool) (used : Nat) (cache : TranscodeCache) : Swept :=
  if _above : used ≤ pass.budget then ⟨cache, used, []⟩
  else
    match _found : pass.evictCandidates skipHot cache.artifacts with
    | [] => if skipHot then evictLoop refused false used cache else ⟨cache, used, []⟩
    | victim :: later =>
        let round := pass.evictRound refused (victim :: later) used cache
        let rest := evictLoop refused skipHot round.used round.cache
        { rest with deleted := round.deleted ++ rest.deleted }
termination_by (cache.artifacts.length, skipHot.toNat)
decreasing_by
  · rename_i skips
    rw [skips]
    exact Prod.Lex.right _ Nat.one_pos
  · apply Prod.Lex.left
    have listed : victim ∈ pass.evictCandidates skipHot cache.artifacts := _found ▸ List.mem_cons_self
    exact evict_round_shorter pass refused (mem_evict_candidates pass listed).1 _above

def evict (refused : Entry → Bool) (cache : TranscodeCache) : Swept :=
  pass.evictLoop refused true (usedBytes cache.artifacts) cache

end EvictionPass

/-- What the encode hands over; its temporary lies in the cache directory. -/
structure NewArtifact where
  key : Text
  sourceSha256 : Text
  paramsHash : Text
  preset : Text
  fileName : Text
  downloadName : Text
  mimeType : Text
  transcoderVersion : Int

/-- The length of the published file and the digest of its bytes, if they could be hashed. -/
structure Published where
  size : Nat
  sha256 : Option Text

namespace TranscodeCache

def inserted (new : NewArtifact) (published : Published) (now : Text) : Artifact where
  key := new.key
  sourceSha256 := new.sourceSha256
  paramsHash := new.paramsHash
  preset := new.preset
  fileName := new.fileName
  mimeType := new.mimeType
  sizeBytes := published.size
  transcoderVersion := new.transcoderVersion
  createdAt := now
  lastAccess := now
  hitCount := 0
  pinned := 0
  sha256 := published.sha256
  downloadName := some new.downloadName
  isLength := Int.natCast_nonneg published.size

/-- `ON CONFLICT(key) DO UPDATE` -/
def refreshed (new : NewArtifact) (published : Published) (now : Text) (artifact : Artifact) : Artifact :=
  { artifact with
    fileName := new.fileName
    mimeType := new.mimeType
    sizeBytes := published.size
    isLength := Int.natCast_nonneg published.size
    lastAccess := now
    sha256 := published.sha256
    downloadName := some new.downloadName }

def upserted (new : NewArtifact) (published : Published) (now : Text) (artifacts : List Artifact) : List Artifact :=
  if artifacts.any fun artifact => artifact.key = new.key then
    artifacts.map fun artifact => if artifact.key = new.key then refreshed new published now artifact else artifact
  else artifacts ++ [inserted new published now]

variable {new : NewArtifact} {published : Published} {now : Text} {artifacts : List Artifact}

theorem upserted_row {artifact : Artifact} (member : artifact ∈ upserted new published now artifacts) :
    artifact.key = new.key ∧ artifact.fileName = new.fileName ∨ artifact ∈ artifacts ∧ artifact.key ≠ new.key := by
  unfold upserted at member
  split at member
  · obtain ⟨old, isOld, rfl⟩ := List.mem_map.mp member
    by_cases same : old.key = new.key
    · rw [if_pos same]
      exact .inl ⟨same, rfl⟩
    · rw [if_neg same]
      exact .inr ⟨isOld, same⟩
  · rename_i absent
    rcases List.mem_append.mp member with isOld | isNew
    · exact .inr ⟨isOld, fun same => absent (List.any_eq_true.mpr ⟨artifact, isOld, decide_eq_true same⟩)⟩
    · cases List.mem_singleton.mp isNew
      exact .inl ⟨rfl, rfl⟩

theorem upserted_distinct (distinct : (artifacts.map Artifact.key).Nodup) :
    ((upserted new published now artifacts).map Artifact.key).Nodup := by
  unfold upserted
  split
  · have sameKeys : (Artifact.key ∘ fun artifact =>
        if artifact.key = new.key then refreshed new published now artifact else artifact) = Artifact.key := by
      funext artifact
      simp only [Function.comp_apply]
      split <;> rfl
    rw [List.map_map, sameKeys]
    exact distinct
  · rename_i absent
    rw [List.map_append, List.nodup_append]
    refine ⟨distinct, List.nodup_singleton _, ?_⟩
    intro key isKey other isNew
    obtain ⟨artifact, member, rfl⟩ := List.mem_map.mp isKey
    rw [List.map_singleton, List.mem_singleton] at isNew
    rw [isNew]
    intro same
    apply absent
    rw [List.any_eq_true]
    exact ⟨artifact, member, decide_eq_true same⟩

/-- The rename replaces a file of the name, and the row follows it. -/
def publish (new : NewArtifact) (published : Published) (now : Text) (temp : Text) (cache : TranscodeCache) :
    TranscodeCache :=
  { cache with
    entries := .file new.fileName :: cache.entries.filter fun entry =>
      entry ≠ .file temp ∧ entry ≠ .file new.fileName
    artifacts := upserted new published now cache.artifacts
    keysDistinct := upserted_distinct cache.keysDistinct }

/-- A publication that fails leaves at most the temporary, which is removed. -/
def commit (refused : Entry → Bool) (budget : Nat) (hotSince now : Text) (new : NewArtifact) (temp : Text)
    (published : Option Published) (cache : TranscodeCache) : TranscodeCache :=
  match published with
  | none => cache.remove refused (.file temp)
  | some published =>
      let pass : EvictionPass := ⟨budget, hotSince, some new.key⟩
      (pass.evict refused ((cache.publish new published now temp).clearFailure new.key)).cache

end TranscodeCache

end Panoptikon.Transcode
