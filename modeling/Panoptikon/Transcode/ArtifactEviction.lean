import Panoptikon.Transcode.ArtifactCache

/-!
# Eviction of artifacts

The rounds of an eviction pass are one run of removals: cold artifacts first, and of
either class the least recently used. A pass ends within the budget, or where every
artifact left is pinned or protected.
-/

namespace Panoptikon.Transcode

open Foundation

namespace EvictionPass

variable (pass : EvictionPass)

/-- Cold comes before hot, and then the least recently used. -/
def policy : Eviction.Policy Artifact Text (Bool ×ₗ Text) where
  key := Artifact.key
  size := Artifact.bytes
  rank artifact := toLex (artifact.isHot pass.hotSince, artifact.lastAccess)
  Evictable := Artifact.Evictable pass.protect

theorem used_bytes_total (artifacts : List Artifact) : usedBytes artifacts = pass.policy.total artifacts := by
  have sum : (artifacts.map Artifact.sizeBytes).sum = (pass.policy.total artifacts : Int) := by
    induction artifacts with
    | nil => rfl
    | cons artifact rest ih =>
      have isLength := artifact.isLength
      have bytes : (artifact.bytes : Int) = artifact.sizeBytes := by
        unfold Artifact.bytes
        omega
      have unfolded : pass.policy.total (artifact :: rest) = artifact.bytes + pass.policy.total rest := rfl
      rw [List.map_cons, List.sum_cons, ih, unfolded, Int.natCast_add, bytes]
  rw [usedBytes, sum]
  omega

theorem rank_le_iff {first second : Artifact} : pass.policy.rank first ≤ pass.policy.rank second ↔
      first.isHot pass.hotSince < second.isHot pass.hotSince ∨
        first.isHot pass.hotSince = second.isHot pass.hotSince ∧ first.lastAccess ≤ second.lastAccess :=
  Prod.Lex.toLex_le_toLex

theorem listed_iff {skipHot : Bool} {artifact : Artifact} : pass.listed skipHot artifact = true ↔
      artifact.Evictable pass.protect ∧ (skipHot = true → artifact.isHot pass.hotSince = false) := by
  rw [listed, Bool.and_eq_true, decide_eq_true_iff, Bool.not_eq_true', Bool.and_eq_false_imp]

/-- What a round still has to consider: its victims come before every other candidate. -/
structure Pending (skipHot : Bool) (victims artifacts : List Artifact) : Prop where
  ordered : victims.Pairwise fun first second => first.lastAccess ≤ second.lastAccess
  distinct : (victims.map Artifact.key).Nodup
  listed : ∀ victim ∈ victims, victim ∈ artifacts ∧ pass.listed skipHot victim = true
  before : ∀ artifact ∈ artifacts, pass.listed skipHot artifact = true →
    artifact ∈ victims ∨ ∀ victim ∈ victims, victim.lastAccess ≤ artifact.lastAccess

/-- The hot artifacts are candidates only when every evictable one is hot. -/
def HotLeft (skipHot : Bool) (artifacts : List Artifact) : Prop :=
  skipHot = false → ∀ artifact ∈ artifacts, artifact.Evictable pass.protect → artifact.isHot pass.hotSince = true

variable {pass} {skipHot : Bool} {victims later artifacts : List Artifact} {victim : Artifact}

theorem candidates_pending (distinct : (artifacts.map Artifact.key).Nodup) :
    pass.Pending skipHot (pass.evictCandidates skipHot artifacts) artifacts := by
  have sorted := KeyedSort.sort_ordered Artifact.lastAccess (artifacts.filter (pass.listed skipHot))
  have perm := KeyedSort.sort_perm Artifact.lastAccess (artifacts.filter (pass.listed skipHot))
  have keys : ((KeyedSort.sortByKey Artifact.lastAccess (artifacts.filter (pass.listed skipHot))).map
      Artifact.key).Nodup :=
    (perm.map Artifact.key).nodup_iff.mpr (distinct.sublist (List.filter_sublist.map Artifact.key))
  constructor
  · exact sorted.sublist (List.take_sublist _ _)
  · exact keys.sublist ((List.take_sublist _ _).map Artifact.key)
  · intro victim member
    exact mem_evict_candidates pass member
  · intro artifact member isListed
    have inSorted := perm.mem_iff.mpr (List.mem_filter.mpr ⟨member, isListed⟩)
    rw [← List.take_append_drop evictBatch (KeyedSort.sortByKey _ _), List.mem_append] at inSorted
    rw [← List.take_append_drop evictBatch (KeyedSort.sortByKey _ _), List.pairwise_append] at sorted
    apply inSorted.imp_right
    intro inRest victim isVictim
    exact sorted.2.2 victim isVictim artifact inRest

theorem Pending.justified (pending : pass.Pending skipHot (victim :: later) artifacts)
    (hotLeft : pass.HotLeft skipHot artifacts) (above : pass.budget < pass.policy.total artifacts) :
    pass.policy.Justified pass.budget artifacts victim := by
  obtain ⟨listed, isListed⟩ := pending.listed victim List.mem_cons_self
  obtain ⟨evictable, cold⟩ := pass.listed_iff.mp isListed
  refine ⟨listed, evictable, ?_, above⟩
  intro other member otherEvictable
  have older (otherListed : pass.listed skipHot other = true) : victim.lastAccess ≤ other.lastAccess := by
    rcases pending.before other member otherListed with isVictim | isLater
    · rcases List.mem_cons.mp isVictim with rfl | inLater
      · exact le_refl _
      · exact List.rel_of_pairwise_cons pending.ordered inLater
    · exact isLater victim List.mem_cons_self
  rw [rank_le_iff]
  cases skipHot with
  | true =>
    have victimCold := cold rfl
    cases otherHot : other.isHot pass.hotSince with
    | true =>
      rw [victimCold]
      exact .inl Bool.false_lt_true
    | false => exact .inr ⟨victimCold, older (pass.listed_iff.mpr ⟨otherEvictable, fun _ => otherHot⟩)⟩
  | false =>
    apply Or.inr
    rw [hotLeft rfl victim listed evictable, hotLeft rfl other member otherEvictable]
    refine ⟨rfl, older (pass.listed_iff.mpr ⟨otherEvictable, ?_⟩)⟩
    intro skips
    cases skips

theorem Pending.next (pending : pass.Pending skipHot (victim :: later) artifacts) :
    pass.Pending skipHot later (artifacts.filter fun other => other.key ≠ victim.key) := by
  have distinct := pending.distinct
  rw [List.map_cons, List.nodup_cons] at distinct
  constructor
  · exact pending.ordered.of_cons
  · exact distinct.2
  · intro other member
    obtain ⟨listed, isListed⟩ := pending.listed other (List.mem_cons_of_mem victim member)
    refine ⟨List.mem_filter.mpr ⟨listed, decide_eq_true ?_⟩, isListed⟩
    intro same
    exact distinct.1 (same ▸ List.mem_map_of_mem member)
  · intro other member isListed
    rw [List.mem_filter, decide_eq_true_iff] at member
    rcases pending.before other member.1 isListed with isVictim | isLater
    · apply Or.inl
      rcases List.mem_cons.mp isVictim with rfl | inLater
      · exact absurd rfl member.2
      · exact inLater
    · exact .inr fun one inLater => isLater one (List.mem_cons_of_mem victim inLater)

theorem HotLeft.left (hotLeft : pass.HotLeft skipHot artifacts) (removed : List Artifact) :
    pass.HotLeft skipHot (pass.policy.left artifacts removed) := by
  intro spares artifact member
  exact hotLeft spares artifact (Eviction.mem_left.mp member).1

/-- What a round or a whole pass does from the artifacts on. -/
structure SweptFrom (pass : EvictionPass) (cache : TranscodeCache) (swept : Swept) : Prop where
  run : pass.policy.Run pass.budget cache.artifacts swept.deleted
  left : swept.cache.artifacts = pass.policy.left cache.artifacts swept.deleted
  used : swept.used = pass.policy.total swept.cache.artifacts
  files : ∀ name, (∀ victim ∈ swept.deleted, name ≠ victim.fileName) →
    (Entry.file name ∈ swept.cache.entries ↔ Entry.file name ∈ cache.entries)

variable {cache : TranscodeCache} {used : Nat}

theorem SweptFrom.idle (isUsed : used = pass.policy.total cache.artifacts) :
    pass.SweptFrom cache ⟨cache, used, []⟩ :=
  ⟨.done _, rfl, isUsed, fun _ _ => Iff.rfl⟩

variable (refused : Entry → Bool)

theorem round_sweeps (pending : pass.Pending skipHot victims cache.artifacts)
    (hotLeft : pass.HotLeft skipHot cache.artifacts) (isUsed : used = pass.policy.total cache.artifacts) :
    pass.SweptFrom cache (pass.evictRound refused victims used cache) := by
  induction victims generalizing used cache with
  | nil => exact SweptFrom.idle isUsed
  | cons victim later ih =>
    rw [evictRound]
    split
    · exact SweptFrom.idle isUsed
    · rename_i above
      have justified := pending.justified hotLeft (isUsed ▸ Nat.lt_of_not_le above)
      have rows : (cache.removeArtifact refused victim).artifacts = pass.policy.without cache.artifacts victim :=
        TranscodeCache.remove_artifact_artifacts refused cache victim
      have keys : pass.policy.KeysDistinct cache.artifacts := cache.keysDistinct
      have smaller : pass.policy.total cache.artifacts =
          victim.bytes + pass.policy.total (pass.policy.without cache.artifacts victim) :=
        Eviction.total_without keys justified.listed
      have nextPending : pass.Pending skipHot later (cache.removeArtifact refused victim).artifacts := by
        rw [rows]
        exact pending.next
      have nextHot : pass.HotLeft skipHot (cache.removeArtifact refused victim).artifacts := by
        rw [rows]
        exact hotLeft.left [victim]
      have nextUsed : used - victim.bytes = pass.policy.total (cache.removeArtifact refused victim).artifacts := by
        rw [rows, isUsed, smaller, Nat.add_sub_cancel_left]
      have rest := ih nextPending nextHot nextUsed
      constructor
      · exact .evict justified (rows ▸ rest.run)
      · rw [rest.left, rows]
        rfl
      · exact rest.used
      · intro name others
        rw [List.forall_mem_cons] at others
        rw [rest.files name others.2]
        exact TranscodeCache.file_remove_artifact refused cache others.1

theorem SweptFrom.trans {first second : Swept} (firstSweeps : pass.SweptFrom cache first)
    (secondSweeps : pass.SweptFrom first.cache second) :
    pass.SweptFrom cache { second with deleted := first.deleted ++ second.deleted } := by
  constructor
  · exact firstSweeps.run.append (firstSweeps.left ▸ secondSweeps.run)
  · dsimp only
    rw [secondSweeps.left, firstSweeps.left, Eviction.left_append]
  · exact secondSweeps.used
  · intro name others
    rw [List.forall_mem_append] at others
    rw [secondSweeps.files name others.2, firstSweeps.files name others.1]

theorem no_candidates (none_ : pass.evictCandidates skipHot artifacts = []) :
    ∀ artifact ∈ artifacts, pass.listed skipHot artifact = false := by
  rw [evictCandidates, List.take_eq_nil_iff, or_iff_right (by decide)] at none_
  have perm := KeyedSort.sort_perm Artifact.lastAccess (artifacts.filter (pass.listed skipHot))
  rw [none_] at perm
  have empty := List.filter_eq_nil_iff.mp perm.nil_eq.symm
  intro artifact member
  exact Bool.eq_false_iff.mpr (empty artifact member)

/-- Where a pass stops. -/
def Finished (pass : EvictionPass) (artifacts : List Artifact) : Prop :=
  pass.policy.total artifacts ≤ pass.budget ∨ ∀ artifact ∈ artifacts, ¬artifact.Evictable pass.protect

theorem loop_sweeps (hotLeft : pass.HotLeft skipHot cache.artifacts)
    (isUsed : used = pass.policy.total cache.artifacts) :
    pass.SweptFrom cache (pass.evictLoop refused skipHot used cache) ∧
      pass.Finished (pass.evictLoop refused skipHot used cache).cache.artifacts := by
  induction skipHot, used, cache using EvictionPass.evictLoop.induct pass refused with
  | case1 skipHot used cache within =>
    rw [evictLoop, dif_pos within]
    exact ⟨SweptFrom.idle isUsed, .inl (isUsed ▸ within)⟩
  | case2 used cache above found ih =>
    have unlisted := no_candidates found
    rw [evictLoop, dif_neg above, found]
    dsimp only
    rw [if_pos rfl]
    apply ih _ isUsed
    intro _ artifact member evictable
    have spared := unlisted artifact member
    rw [← Bool.not_eq_true, pass.listed_iff, not_and, Classical.not_imp, Bool.not_eq_false] at spared
    exact (spared evictable).2
  | case3 skipHot used cache above found spares =>
    have unlisted := no_candidates found
    rw [evictLoop, dif_neg above, found]
    dsimp only
    rw [if_neg spares]
    refine ⟨SweptFrom.idle isUsed, .inr ?_⟩
    intro artifact member evictable
    have isListed := pass.listed_iff.mpr ⟨evictable, fun skips => absurd skips spares⟩
    rw [unlisted artifact member] at isListed
    cases isListed
  | case4 skipHot used cache above victim later found round ih =>
    have sweeps := round_sweeps refused (candidates_pending cache.keysDistinct) hotLeft isUsed
    rw [found] at sweeps
    have rest := ih (sweeps.left ▸ hotLeft.left round.deleted) sweeps.used
    rw [evictLoop, dif_neg above, found]
    exact ⟨sweeps.trans rest.1, rest.2⟩

/-- The artifacts that outlast some deletions. -/
def remaining (artifacts deleted : List Artifact) : List Artifact :=
  artifacts.filter fun artifact => deleted.all fun victim => artifact.key ≠ victim.key

theorem left_remaining (artifacts deleted : List Artifact) :
    pass.policy.left artifacts deleted = remaining artifacts deleted := by
  induction deleted generalizing artifacts with
  | nil => exact (List.filter_eq_self.mpr fun _ _ => rfl).symm
  | cons victim later ih =>
    have unfolded : pass.policy.left artifacts (victim :: later) =
        pass.policy.left (pass.policy.without artifacts victim) later := rfl
    rw [unfolded, ih, remaining, remaining, Eviction.Policy.without, List.filter_filter]
    congr 1
    funext artifact
    rw [List.all_cons, Bool.and_comm]
    rfl

/-- A deletion that the budget asks for, and that no other artifact is to make room for. -/
structure Deletion (pass : EvictionPass) (artifacts : List Artifact) (victim : Artifact) : Prop where
  listed : victim ∈ artifacts
  evictable : victim.Evictable pass.protect
  needed : pass.budget < usedBytes artifacts
  coldFirst : victim.isHot pass.hotSince = true →
    ∀ other ∈ artifacts, other.Evictable pass.protect → other.isHot pass.hotSince = true
  oldest : ∀ other ∈ artifacts, other.Evictable pass.protect →
    other.isHot pass.hotSince = victim.isHot pass.hotSince → victim.lastAccess ≤ other.lastAccess

theorem deletion_of_justified (justified : pass.policy.Justified pass.budget artifacts victim) :
    pass.Deletion artifacts victim := by
  have lowest := justified.lowest
  simp only [rank_le_iff] at lowest
  constructor
  · exact justified.listed
  · exact justified.evictable
  · rw [pass.used_bytes_total]
    exact justified.needed
  · intro hot other member evictable
    rcases lowest other member evictable with colder | same
    · rw [hot] at colder
      exact absurd colder (not_lt_of_ge (Bool.le_true _))
    · rw [← same.1, hot]
  · intro other member evictable same
    rcases lowest other member evictable with colder | same
    · rw [same] at colder
      exact absurd colder (lt_irrefl _)
    · exact same.2

theorem evict_sweeps (refused : Entry → Bool) (pass : EvictionPass) (cache : TranscodeCache) :
    pass.SweptFrom cache (pass.evict refused cache) ∧ pass.Finished (pass.evict refused cache).cache.artifacts := by
  apply loop_sweeps refused _ (pass.used_bytes_total cache.artifacts)
  intro spares
  cases spares

/-- A pass ends within the budget, or with pinned and protected artifacts only. Those keep their rows,
and their files if no other row names them. Each deletion is asked for by the artifacts left before it. -/
theorem evict_bounded (pass : EvictionPass) (refused : Entry → Bool) (cache : TranscodeCache) :
    (usedBytes (pass.evict refused cache).cache.artifacts ≤ pass.budget ∨
      ∀ artifact ∈ (pass.evict refused cache).cache.artifacts, ¬artifact.Evictable pass.protect) ∧
    (∀ artifact ∈ cache.artifacts, ¬artifact.Evictable pass.protect →
      artifact ∈ (pass.evict refused cache).cache.artifacts ∧
        ((∀ other ∈ cache.artifacts, artifact.fileName = other.fileName → artifact = other) →
          (Entry.file artifact.fileName ∈ (pass.evict refused cache).cache.entries ↔
            Entry.file artifact.fileName ∈ cache.entries))) ∧
    (pass.evict refused cache).cache.artifacts = remaining cache.artifacts (pass.evict refused cache).deleted ∧
    ∀ before victim after, (pass.evict refused cache).deleted = before ++ victim :: after →
      pass.Deletion (remaining cache.artifacts before) victim := by
  obtain ⟨sweeps, finished⟩ := evict_sweeps refused pass cache
  have keys : pass.policy.KeysDistinct cache.artifacts := cache.keysDistinct
  refine ⟨?_, ?_, ?_, ?_⟩
  · rw [pass.used_bytes_total]
    exact finished
  · intro artifact member kept
    refine ⟨?_, ?_⟩
    · rw [sweeps.left]
      exact sweeps.run.keeps keys member kept
    · intro alone
      apply sweeps.files
      intro victim isVictim sameFile
      have removed := sweeps.run.victim_evictable victim isVictim
      rw [alone victim removed.1 sameFile] at kept
      exact kept removed.2
  · rw [sweeps.left, left_remaining]
  · intro before victim after split
    rw [← left_remaining]
    exact deletion_of_justified (sweeps.run.justified split)

end EvictionPass

namespace TranscodeCache

/-- What is done to the cache. -/
inductive CacheOp where
  | commit (budget : Nat) (hotSince now : Text) (new : NewArtifact) (temp : Text) (published : Option Published)
  | clear (includeFailures : Bool)
  | evict (pass : EvictionPass)

/-- The name of an artifact's file follows from its key, and no temporary has such a name. -/
def CacheOp.Named (nameOf : Text → Text) : CacheOp → Prop
  | commit _ _ _ new temp _ => new.fileName = nameOf new.key ∧ ∀ key, temp ≠ nameOf key
  | clear _ | evict _ => True

def apply (refused : Entry → Bool) (cache : TranscodeCache) : CacheOp → TranscodeCache
  | .commit budget hotSince now new temp published => cache.commit refused budget hotSince now new temp published
  | .clear includeFailures => (cache.clear refused includeFailures).1
  | .evict pass => (pass.evict refused cache).cache

def run (cache : TranscodeCache) (ops : List ((Entry → Bool) × CacheOp)) : TranscodeCache :=
  ops.foldl (fun cache op => cache.apply op.1 op.2) cache

/-- No row is an orphan. -/
def Housed (nameOf : Text → Text) (cache : TranscodeCache) : Prop :=
  ∀ artifact ∈ cache.artifacts, artifact.fileName = nameOf artifact.key ∧ .file artifact.fileName ∈ cache.entries

section Housing

variable {nameOf : Text → Text} {cache : TranscodeCache} (injective : Function.Injective nameOf)
include injective

section

variable (housed : cache.Housed nameOf)

include housed

variable (refused : Entry → Bool)

theorem Housed.evict (pass : EvictionPass) : (pass.evict refused cache).cache.Housed nameOf := by
  have sweeps := (EvictionPass.evict_sweeps refused pass cache).1
  intro artifact member
  rw [sweeps.left, Eviction.mem_left] at member
  obtain ⟨named, isFile⟩ := housed artifact member.1
  refine ⟨named, (sweeps.files _ ?_).mpr isFile⟩
  intro victim isVictim same
  have removed := sweeps.run.victim_evictable victim isVictim
  rw [named, (housed victim removed.1).1] at same
  exact member.2 victim isVictim (injective same)

theorem Housed.remove_each (rows : List Artifact) (named : ∀ row ∈ rows, row.fileName = nameOf row.key) :
    (rows.foldl (fun cache artifact => cache.removeArtifact refused artifact) cache).Housed nameOf := by
  induction rows generalizing cache with
  | nil => exact housed
  | cons row later ih =>
    apply ih _ fun other member => named other (List.mem_cons_of_mem _ member)
    intro artifact member
    rw [remove_artifact_artifacts, List.mem_filter, decide_eq_true_iff] at member
    obtain ⟨isNamed, isFile⟩ := housed artifact member.1
    refine ⟨isNamed, (file_remove_artifact refused cache ?_).mpr isFile⟩
    rw [isNamed, named row List.mem_cons_self]
    exact fun same => member.2 (injective same)

theorem Housed.publish {new : NewArtifact} {temp : Text}
    (isNamed : new.fileName = nameOf new.key) (noName : ∀ key, temp ≠ nameOf key) (published : Published) (now : Text) :
    (cache.publish new published now temp).Housed nameOf := by
  intro artifact member
  rcases upserted_row member with ⟨isKey, isFile⟩ | ⟨isOld, differs⟩
  · rw [isFile, isKey]
    exact ⟨isNamed, List.mem_cons_self⟩
  · obtain ⟨named, isFile⟩ := housed artifact isOld
    refine ⟨named, List.mem_cons_of_mem _ (List.mem_filter.mpr ⟨isFile, decide_eq_true ⟨?_, ?_⟩⟩)⟩
    · exact fun same => noName artifact.key ((Entry.file.inj same).symm.trans named)
    · intro same
      rw [Entry.file.injEq, named, isNamed] at same
      exact differs (injective same)

theorem Housed.apply {op : CacheOp} (named : op.Named nameOf) : (cache.apply refused op).Housed nameOf := by
  cases op with
  | commit budget hotSince now new temp published =>
    cases published with
    | none =>
      intro artifact member
      obtain ⟨isNamed, isFile⟩ := housed artifact (remove_artifacts refused cache (.file temp) ▸ member)
      refine ⟨isNamed, (mem_remove refused cache ?_).mpr isFile⟩
      rw [isNamed]
      exact fun same => named.2 artifact.key (Entry.file.inj same).symm
    | some published =>
      have held : ((cache.publish new published now temp).clearFailure new.key).Housed nameOf :=
        housed.publish injective named.1 named.2 published now
      exact held.evict injective refused _
  | clear includeFailures =>
    have removed := housed.remove_each injective refused (cache.artifacts.filter fun artifact => artifact.pinned = 0)
      fun row member => (housed row (List.mem_of_mem_filter member)).1
    unfold TranscodeCache.apply clear
    dsimp only
    split <;> exact removed
  | evict pass => exact housed.evict injective refused pass

end

/-- Whatever is done to the cache, and whichever files cannot be removed, each row has its file. -/
theorem rows_have_files (housed : cache.Housed nameOf) {ops : List ((Entry → Bool) × CacheOp)}
    (named : ∀ op ∈ ops, op.2.Named nameOf) : (cache.run ops).Housed nameOf := by
  induction ops generalizing cache with
  | nil => exact housed
  | cons op rest ih =>
    exact ih (housed.apply injective op.1 (named op List.mem_cons_self))
      fun other member => named other (List.mem_cons_of_mem _ member)

end Housing

def clip (key : Text) : NewArtifact := ⟨key, [], [], [], key ++ ['w'], [], [], 1⟩

/-- Two clips that the budget has no room for together. -/
def twoClips : List ((Entry → Bool) × CacheOp) :=
  ['a', 'b'].map fun key => (fun _ => key = 'b', .commit 15 [] [key] (clip [key]) ['t'] (some ⟨10, none⟩))

theorem two_clips_have_files :
    (run ⟨[], [], [], List.nodup_nil⟩ twoClips).Housed (· ++ ['w']) := by
  apply rows_have_files (List.append_left_injective _) fun _ absent => absurd absent List.not_mem_nil
  intro op member
  obtain ⟨key, -, rfl⟩ := List.mem_map.mp member
  refine ⟨rfl, fun key same => ?_⟩
  have last := congrArg List.getLast? same
  rw [List.getLast?_concat] at last
  cases last

end TranscodeCache

end Panoptikon.Transcode
