import Mathlib.Data.Prod.Lex
import Panoptikon.Foundation.Sorted
import Panoptikon.Jobs.Actors

/-!
# The merged cron batch

`build_cron_requests` and `merge_cron_batches` of `jobs/cron.rs`, and the batch
the scheduler enqueues for the databases that fire in one tick. What the inference
server says of a model is a parameter.
-/

namespace Panoptikon.Jobs

open Foundation Foundation.KeyedSort

inductive CronPhase where
  | scan
  | source
  | derived
  | unknown
deriving DecidableEq

def CronPhase.position : CronPhase → Nat
  | .scan => 0
  | .source => 1
  | .derived => 2
  | .unknown => 3

/-- The order of declaration. -/
instance : LinearOrder CronPhase :=
  LinearOrder.lift' CronPhase.position fun first second same => by
    cases first <;> cases second <;> first | rfl | exact absurd same (by decide)

structure CronJob where
  inferenceId : Text
  batchSize : Option Int
  threshold : Option UInt64

def cronTag : Text := "cronjob".toList

def cronPhase (targetEntities : List Text) : CronPhase :=
  if targetEntities = ["items".toList] ∨ targetEntities = ["files".toList] then .source else .derived

def cronRequest (jobType : JobType) (indexDb userDataDb : String) (metadata : Option Text) : JobRequest where
  jobType := jobType
  indexDb := indexDb
  userDataDb := userDataDb
  metadata := metadata
  batchSize := none
  threshold := none
  logId := none
  tag := some cronTag

def modelRequest (indexDb userDataDb : String) (job : CronJob) : JobRequest :=
  { cronRequest .dataExtraction indexDb userDataDb (some job.inferenceId) with
    batchSize := job.batchSize
    threshold := job.threshold }

/-- Without metadata no model is dropped, and none is classified. -/
def buildCronRequests (indexDb userDataDb : String) (scanJobType : JobType) (cronJobs : List CronJob)
    (metadata : Option (Text → Option (List Text))) : List (CronPhase × JobRequest) :=
  (.scan, cronRequest scanJobType indexDb userDataDb none) ::
    match metadata with
    | none => cronJobs.map fun job => (.unknown, modelRequest indexDb userDataDb job)
    | some resolve => cronJobs.filterMap fun job =>
        (resolve job.inferenceId).map fun targetEntities =>
          (cronPhase targetEntities, modelRequest indexDb userDataDb job)

structure Ranks where
  ranks : KeyedMap (CronPhase × Option Text) Nat
  nextRank : KeyedMap CronPhase Nat

namespace Ranks

def next (ranks : Ranks) (phase : CronPhase) : Nat := (ranks.nextRank.lookup phase).getD 0

def freshRank (ranks : Ranks) (phase : CronPhase) : Nat × Ranks :=
  (ranks.next phase, { ranks with nextRank := ranks.nextRank.insert phase (ranks.next phase + 1) })

/-- A setter has one rank in a phase. Unclassified requests have one each. -/
def rank (ranks : Ranks) (phase : CronPhase) (setter : Option Text) : Nat × Ranks :=
  if phase = .unknown then ranks.freshRank phase
  else
    match ranks.ranks.lookup (phase, setter) with
    | some rank => (rank, ranks)
    | none =>
        ((ranks.freshRank phase).1,
          { (ranks.freshRank phase).2 with
            ranks := ranks.ranks.insert (phase, setter) (ranks.freshRank phase).1 })

end Ranks

def keyed : Ranks → List (CronPhase × JobRequest) → List ((CronPhase × Nat) × JobRequest)
  | _, [] => []
  | ranks, (phase, request) :: rest =>
      ((phase, (ranks.rank phase request.metadata).1), request) ::
        keyed (ranks.rank phase request.metadata).2 rest

def sortedBatches (batches : List (List (CronPhase × JobRequest))) : List ((CronPhase × Nat) × JobRequest) :=
  sortByKey (fun entry => toLex entry.1) (keyed ⟨∅, ∅⟩ batches.flatten)

def mergeCronBatches (batches : List (List (CronPhase × JobRequest))) : List JobRequest :=
  (sortedBatches batches).map Prod.snd

/-- A database with its requests. -/
abbrev DbBatch := String × List (CronPhase × JobRequest)

def enqueueCronBatches (perDb : List DbBatch) : ClientMessage :=
  .enqueueBatch (mergeCronBatches (perDb.map Prod.snd)) (perDb.map fun batch => ⟨cronTag, batch.1⟩)

namespace Ranks

/-- In a phase the ranks given out tell the setters apart. -/
structure Distinct (ranks : Ranks) : Prop where
  given : ∀ phase setter rank, ranks.ranks.lookup (phase, setter) = some rank → rank < ranks.next phase
  apart : ∀ phase first second rank, ranks.ranks.lookup (phase, first) = some rank →
    ranks.ranks.lookup (phase, second) = some rank → first = second

def Extends (ranks later : Ranks) : Prop :=
  ∀ key rank, ranks.ranks.lookup key = some rank → later.ranks.lookup key = some rank

theorem next_fresh (ranks : Ranks) (phase other : CronPhase) :
    (ranks.freshRank phase).2.next other = if other = phase then ranks.next phase + 1 else ranks.next other := by
  rw [freshRank, next]
  dsimp only
  rw [KeyedMap.lookup_insert_eq]
  split
  · rfl
  · rfl

theorem rank_unknown (ranks : Ranks) (setter : Option Text) :
    ranks.rank .unknown setter = ranks.freshRank .unknown := if_pos rfl

theorem rank_known {ranks : Ranks} (distinct : ranks.Distinct) {phase : CronPhase} (known : phase ≠ .unknown)
    (setter : Option Text) :
    (ranks.rank phase setter).2.ranks.lookup (phase, setter) = some (ranks.rank phase setter).1 ∧
      ranks.Extends (ranks.rank phase setter).2 ∧ (ranks.rank phase setter).2.Distinct ∧
      (ranks.rank phase setter).2.next .unknown = ranks.next .unknown := by
  rw [rank, if_neg known]
  cases given : ranks.ranks.lookup (phase, setter) with
  | some rank => exact ⟨given, fun _ _ found => found, distinct, rfl⟩
  | none =>
    have lookup (key : CronPhase × Option Text) : (ranks.ranks.insert (phase, setter) (ranks.next phase)).lookup key =
        if key = (phase, setter) then some (ranks.next phase) else ranks.ranks.lookup key :=
      KeyedMap.lookup_insert_eq _ _ _ _
    have later (other : CronPhase) : ranks.next other ≤ (ranks.freshRank phase).2.next other := by
      rw [next_fresh]
      split
      · rename_i same
        rw [same]
        exact Nat.le_succ _
      · exact Nat.le_refl _
    refine ⟨?_, ?_, ⟨?_, ?_⟩, ?_⟩
    · exact (lookup _).trans (if_pos rfl)
    · intro key rank found
      refine (lookup key).trans ?_
      rw [if_neg (by rintro rfl; rw [given] at found; exact absurd found.symm (Option.some_ne_none rank))]
      exact found
    · intro other setter' rank found
      have read := (lookup (other, setter')).symm.trans found
      change rank < (ranks.freshRank phase).2.next other
      split at read
      · rename_i same
        cases same
        cases read
        rw [next_fresh, if_pos rfl]
        exact Nat.lt_succ_self _
      · exact Nat.lt_of_lt_of_le (distinct.given other setter' rank read) (later other)
    · intro other first second rank isFirst isSecond
      have readFirst := (lookup (other, first)).symm.trans isFirst
      have readSecond := (lookup (other, second)).symm.trans isSecond
      split at readFirst
      · rename_i same
        cases same
        split at readSecond
        · rename_i same
          exact (congrArg Prod.snd same).symm
        · cases readFirst
          exact absurd (distinct.given phase second _ readSecond) (Nat.lt_irrefl _)
      · split at readSecond
        · rename_i same
          cases same
          cases readSecond
          exact absurd (distinct.given phase first _ readFirst) (Nat.lt_irrefl _)
        · exact distinct.apart other first second rank readFirst readSecond
    · change (ranks.freshRank phase).2.next .unknown = _
      rw [next_fresh, if_neg known.symm]

theorem Distinct.fresh {ranks : Ranks} (distinct : ranks.Distinct) (phase : CronPhase) :
    (ranks.freshRank phase).2.Distinct := by
  refine ⟨?_, distinct.apart⟩
  intro other setter rank found
  have below := distinct.given other setter rank found
  rw [next_fresh]
  split
  · rename_i same
    rw [same] at below
    exact Nat.lt_succ_of_lt below
  · exact below

end Ranks

variable (entries : List (CronPhase × JobRequest))

theorem keyed_requests (ranks : Ranks) :
    (keyed ranks entries).map (fun entry => (entry.1.1, entry.2)) = entries := by
  induction entries generalizing ranks with
  | nil => rfl
  | cons entry rest ih => rw [keyed, List.map_cons, ih]

theorem keyed_ranks {ranks : Ranks} (distinct : ranks.Distinct) :
    ∃ final, ranks.Extends final ∧ final.Distinct ∧ ∀ entry ∈ keyed ranks entries, entry.1.1 ≠ .unknown →
      final.ranks.lookup (entry.1.1, entry.2.metadata) = some entry.1.2 := by
  induction entries generalizing ranks with
  | nil => exact ⟨ranks, fun _ _ found => found, distinct, fun _ absent => absurd absent List.not_mem_nil⟩
  | cons entry rest ih =>
    obtain ⟨phase, request⟩ := entry
    by_cases known : phase = .unknown
    · subst known
      rw [keyed, Ranks.rank_unknown]
      obtain ⟨final, extends_, isDistinct, given⟩ := ih (distinct.fresh .unknown)
      refine ⟨final, extends_, isDistinct, ?_⟩
      intro entry member isKnown
      rcases List.mem_cons.mp member with rfl | later
      · exact absurd rfl isKnown
      · exact given entry later isKnown
    · obtain ⟨here, keeps, stays, -⟩ := Ranks.rank_known distinct known request.metadata
      obtain ⟨final, extends_, isDistinct, given⟩ := ih stays
      refine ⟨final, fun key rank found => extends_ key rank (keeps key rank found), isDistinct, ?_⟩
      rw [keyed]
      intro entry member isKnown
      rcases List.mem_cons.mp member with rfl | later
      · exact extends_ _ _ here
      · exact given entry later isKnown

def isUnknown (entry : (CronPhase × Nat) × JobRequest) : Bool := entry.1.1 = .unknown

theorem keyed_unknown {ranks : Ranks} (distinct : ranks.Distinct) :
    (∀ entry ∈ (keyed ranks entries).filter isUnknown, ranks.next .unknown ≤ entry.1.2) ∧
      ((keyed ranks entries).filter isUnknown).Pairwise fun first second => toLex first.1 ≤ toLex second.1 := by
  induction entries generalizing ranks with
  | nil => exact ⟨fun _ absent => absurd absent List.not_mem_nil, List.Pairwise.nil⟩
  | cons entry rest ih =>
    obtain ⟨phase, request⟩ := entry
    by_cases known : phase = .unknown
    · subst known
      rw [keyed, Ranks.rank_unknown, List.filter_cons_of_pos (by rfl)]
      obtain ⟨above, ordered⟩ := ih (distinct.fresh .unknown)
      rw [Ranks.next_fresh, if_pos rfl] at above
      constructor
      · intro entry member
        rcases List.mem_cons.mp member with rfl | later
        · exact Nat.le_refl _
        · exact Nat.le_of_succ_le (above entry later)
      · apply List.Pairwise.cons _ ordered
        intro entry later
        have isUnknownEntry : entry.1.1 = .unknown := of_decide_eq_true (List.mem_filter.mp later).2
        rw [Prod.Lex.toLex_le_toLex]
        exact .inr ⟨isUnknownEntry.symm, Nat.le_of_succ_le (above entry later)⟩
    · obtain ⟨-, -, stays, same⟩ := Ranks.rank_known distinct known request.metadata
      have notKept : isUnknown ((phase, (ranks.rank phase request.metadata).1), request) = false :=
        decide_eq_false known
      rw [keyed, List.filter_cons_of_neg (by rw [notKept]; exact Bool.false_ne_true), ← same]
      exact ih stays

/-- The merged requests with their phases. -/
def mergedOrder (batches : List (List (CronPhase × JobRequest))) : List (CronPhase × JobRequest) :=
  (sortedBatches batches).map fun entry => (entry.1.1, entry.2)

structure Reordered (batches : List (List (CronPhase × JobRequest))) : Prop where
  requests : (mergedOrder batches).map Prod.snd = mergeCronBatches batches
  permuted : (mergedOrder batches).Perm batches.flatten
  phases : (mergedOrder batches).Pairwise fun first second => first.1 ≤ second.1
  grouped : ∀ phase setter, phase ≠ .unknown →
    Together (fun entry => entry.1 = phase ∧ entry.2.metadata = setter) (mergedOrder batches)
  unclassified : (mergedOrder batches).filter (fun entry => entry.1 = .unknown) =
    batches.flatten.filter fun entry => entry.1 = .unknown

theorem merge_reorders (batches : List (List (CronPhase × JobRequest))) : Reordered batches := by
  have start : Ranks.Distinct ⟨∅, ∅⟩ :=
    ⟨fun _ _ _ found => absurd found.symm (Option.some_ne_none _),
      fun _ _ _ _ found => absurd found.symm (Option.some_ne_none _)⟩
  have ordered := sort_ordered (fun entry : (CronPhase × Nat) × JobRequest => toLex entry.1)
    (keyed ⟨∅, ∅⟩ batches.flatten)
  refine ⟨List.map_map, ?_, ?_, ?_, ?_⟩
  · have permuted := (sort_perm (fun entry : (CronPhase × Nat) × JobRequest => toLex entry.1)
      (keyed ⟨∅, ∅⟩ batches.flatten)).map fun entry => (entry.1.1, entry.2)
    rwa [keyed_requests] at permuted
  · apply List.pairwise_map.mpr
    apply ordered.imp
    intro first second isLe
    rcases Prod.Lex.toLex_le_toLex.mp isLe with below | ⟨same, -⟩
    · exact le_of_lt below
    · exact le_of_eq same
  · intro phase setter known
    obtain ⟨final, -, distinct, given⟩ := keyed_ranks batches.flatten start
    apply Together.map
    apply together_sort
    rintro first isFirst second isSecond ⟨rfl, rfl⟩
    have firstRank := given first isFirst known
    constructor
    · rintro ⟨samePhase, sameSetter⟩
      have secondRank := given second isSecond (samePhase ▸ known)
      rw [samePhase, sameSetter, firstRank, Option.some.injEq] at secondRank
      exact congrArg toLex (Prod.ext samePhase secondRank.symm)
    · intro sameKey
      have same : second.1 = first.1 := congrArg ofLex sameKey
      have secondRank := given second isSecond (by rw [same]; exact known)
      rw [same] at secondRank ⊢
      exact ⟨rfl, distinct.apart first.1.1 _ _ _ secondRank firstRank⟩
  · have kept := filter_sort (fun entry : (CronPhase × Nat) × JobRequest => toLex entry.1) isUnknown
      (keyed_unknown batches.flatten start).2
    have forgotten (entries : List ((CronPhase × Nat) × JobRequest)) :
        (entries.map fun entry => (entry.1.1, entry.2)).filter (fun entry => entry.1 = .unknown) =
          (entries.filter isUnknown).map fun entry => (entry.1.1, entry.2) := List.filter_map
    rw [mergedOrder, forgotten, sortedBatches, kept, ← forgotten, keyed_requests]

end Panoptikon.Jobs
