import Panoptikon.Scan.Suppression

/-!
# Counting confirmed failures

A count of the distinct runs that found the file failing at an indexing-blocking stage
since its last success or its last change, beside what the ledger does.
-/

namespace Panoptikon.Scan

def Event.pair : Event → Option Stat
  | .changed stat => some stat
  | _ => none

/-- The pairs that the file has had. -/
def pairs (stat : Stat) (events : List Event) : List Stat := stat :: events.filterMap Event.pair

/-- A verdict that keeps the file out is about a pair that the file has had. -/
structure Knows (known : Stat → Prop) (path : Path) : Prop where
  stat : known path.stat
  row : ∀ row ∈ path.row, stageBlocksIndexing row.stage = true → known row.stat

variable {path : Path} {events : List Event}

section Knowledge

variable {known : Stat → Prop} {stat : Stat} {rows : Option ScanErrorRow}

theorem knows_fail_file (isKnown : known stat)
    (knows : ∀ row ∈ rows, stageBlocksIndexing row.stage = true → known row.stat) (run : Int)
    (failure : Option ScanFailure) :
    ∀ row ∈ failFile stat run failure rows, stageBlocksIndexing row.stage = true → known row.stat := by
  cases failure with
  | none => exact knows
  | some failure =>
    unfold failFile upsertScanError
    dsimp only
    split
    · exact knows
    · intro row isRow _
      rw [← Option.some.inj isRow]
      exact isKnown

theorem succeed_row_audited (sameBytes : Option Int) :
    ∀ row ∈ succeedRow stat sameBytes rows, stageBlocksIndexing row.stage = false := by
  intro left isLeft
  cases rows with
  | none =>
    cases sameBytes with
    | none | some => cases isLeft
  | some row =>
    cases blocks : stageBlocksIndexing row.stage with
    | true =>
      rw [succeed_row_blocking blocks] at isLeft
      cases isLeft
    | false =>
      rw [succeed_row_audit blocks] at isLeft
      cases sameBytes with
      | some realSize =>
        rw [← Option.some.inj isLeft]
        exact blocks
      | none =>
        dsimp only at isLeft
        split at isLeft
        · rw [← Option.some.inj isLeft]
          exact blocks
        · cases isLeft

theorem Knows.step (knows : Knows known path) {event : Event}
    (isKnown : ∀ stat ∈ event.pair, known stat) : Knows known (path.step event) := by
  cases event with
  | changed stat => exact ⟨isKnown stat rfl, knows.row⟩
  | healed present =>
    refine ⟨knows.stat, ?_⟩
    intro row isRow
    exact knows.row row (Option.mem_filter_iff.mp isRow).1
  | scanned run outcome =>
    refine ⟨knows.stat, ?_⟩
    unfold Path.step scanPath
    dsimp only
    split
    · exact knows.row
    · cases outcome with
      | failed failure => exact knows_fail_file knows.stat knows.row run failure
      | succeeded sameBytes audit =>
        apply knows_fail_file knows.stat
        intro row isRow blocks
        have audited := succeed_row_audited sameBytes row isRow
        rw [audited] at blocks
        cases blocks

theorem Knows.after (knows : Knows known path)
    (isKnown : ∀ stat ∈ events.filterMap Event.pair, known stat) : Knows known (events.foldl Path.step path) := by
  induction events generalizing path with
  | nil => exact knows
  | cons event later ih =>
    apply ih
    · apply knows.step
      intro stat isPair
      exact isKnown stat (List.mem_filterMap.mpr ⟨event, List.mem_cons_self, isPair⟩)
    · intro stat isPair
      obtain ⟨found, member, isFound⟩ := List.mem_filterMap.mp isPair
      exact isKnown stat (List.mem_filterMap.mpr ⟨found, List.mem_cons_of_mem event member, isFound⟩)

end Knowledge

/-- A pair that the file has not had is attempted, whatever the ledger holds. -/
theorem new_bytes_attempted (stat : Stat) (events : List Event) {fresh : Stat} (isFresh : fresh ∉ pairs stat events) :
    (Path.run stat (events ++ [.changed fresh])).suppressed = false := by
  have start : Knows (· ∈ pairs stat events) ⟨stat, none⟩ := ⟨List.mem_cons_self, by rintro row ⟨⟩⟩
  have knows := start.after fun found isPair => List.mem_cons_of_mem stat isPair
  rw [Path.run, List.foldl_append, List.foldl_cons, List.foldl_nil, Path.suppressed, Bool.eq_false_iff]
  intro suppressed
  obtain ⟨row, isRow, suppresses⟩ := (Option.any_eq_true _ _).mp suppressed
  obtain ⟨blocks, -, isFreshPair⟩ := ScanErrorRow.suppresses_iff.mp suppresses
  have isKnown := knows.row row isRow blocks
  rw [isFreshPair] at isKnown
  exact isFresh isKnown

/-- The latest verdict of a blocking stage, and the distinct runs that came to one, since the last success or
change of the pair. -/
structure Tally where
  failure : Option ScanFailure
  runs : List Int
deriving DecidableEq

namespace Tally

def Confirmed (tally : Tally) : Prop := ∃ failure ∈ tally.failure, failure.skipAfter ≤ tally.runs.length

def fail (tally : Tally) (run : Int) (failure : Option ScanFailure) : Tally :=
  match failure with
  | none => tally
  | some failure =>
      if stageBlocksIndexing failure.stage && failure.kind.persistedClass.isSome then
        ⟨some failure, confirm tally.runs run⟩
      else tally

/-- What is suppressed is not attempted, and neither fails nor succeeds. -/
def step (path : Path) (tally : Tally) : Event → Tally
  | .changed stat => if stat = path.stat then tally else ⟨none, []⟩
  | .healed _ => tally
  | .scanned run (.failed failure) => if path.suppressed then tally else tally.fail run failure
  | .scanned _ (.succeeded _ _) => if path.suppressed then tally else ⟨none, []⟩

def count (path : Path) (tally : Tally) : List Event → Tally
  | [] => tally
  | event :: later => count (path.step event) (step path tally event) later

/-- The count over a history. -/
def after (stat : Stat) (events : List Event) : Tally := count ⟨stat, none⟩ ⟨none, []⟩ events

end Tally

/-- No pair comes back, no success carries a verdict of its own, and no dependency that a verdict waits for
binds; `seen` are the pairs so far, the last one first, and `waiting` the dependencies. -/
def Plain : List Stat → List Blocker → List Event → Prop
  | _, _, [] => True
  | seen, waiting, .changed stat :: later =>
      if seen.head? = some stat then Plain seen waiting later
      else stat ∉ seen ∧ Plain (stat :: seen) waiting later
  | seen, waiting, .healed present :: later => (∀ blocker ∈ waiting, blocker ∉ present) ∧ Plain seen waiting later
  | seen, waiting, .scanned _ (.failed failure) :: later =>
      (∀ found ∈ failure, stageBlocksIndexing found.stage = true) ∧
        Plain seen ((failure.bind fun found => found.kind.blocker).toList ++ waiting) later
  | seen, waiting, .scanned _ (.succeeded _ audit) :: later => audit = none ∧ Plain seen waiting later

/-- The count is that of the verdict that stands, where it is about the pair of the file. -/
structure Counts (seen : List Stat) (waiting : List Blocker) (state : Stat × Option Standing) (tally : Tally) :
    Prop where
  current : seen.head? = some state.1
  blocks : ∀ standing ∈ state.2, stageBlocksIndexing standing.failure.stage = true
  known : ∀ standing ∈ state.2, standing.stat ∈ seen
  waits : ∀ standing ∈ state.2, ∀ blocker ∈ standing.failure.kind.blocker, blocker ∈ waiting
  here : ∀ standing ∈ state.2, standing.stat = state.1 → tally = ⟨some standing.failure, standing.runs⟩
  elsewhere : (∀ standing ∈ state.2, standing.stat ≠ state.1) → tally = ⟨none, []⟩

namespace Counts

variable {seen : List Stat} {waiting : List Blocker} {state : Stat × Option Standing} {tally : Tally}

section

variable (counts : Counts seen waiting state tally)

include counts

theorem confirmed_iff :
    Standing.suppressed state.1 state.2 = true ↔ tally.Confirmed := by
  rw [Standing.suppressed, Option.any_eq_true]
  constructor
  · rintro ⟨standing, isStanding, suppresses⟩
    obtain ⟨-, enough, sameStat⟩ := decide_eq_true_iff.mp suppresses
    rw [counts.here standing isStanding sameStat]
    exact ⟨standing.failure, rfl, enough⟩
  · rintro ⟨failure, isFailure, enough⟩
    by_cases here : ∃ standing ∈ state.2, standing.stat = state.1
    · obtain ⟨standing, isStanding, sameStat⟩ := here
      have isTally := counts.here standing isStanding sameStat
      rw [isTally] at isFailure enough
      rw [← Option.some.inj isFailure] at enough
      exact ⟨standing, isStanding, decide_eq_true_iff.mpr ⟨counts.blocks standing isStanding, enough, sameStat⟩⟩
    · have isTally := counts.elsewhere fun standing isStanding sameStat => here ⟨standing, isStanding, sameStat⟩
      rw [isTally] at isFailure
      cases isFailure

theorem changed {stat : Stat} (isNew : stat ∉ seen) : Counts (stat :: seen) waiting (stat, state.2) ⟨none, []⟩ := by
  refine ⟨rfl, counts.blocks, ?_, counts.waits, ?_, fun _ => rfl⟩
  · intro standing isStanding
    exact List.mem_cons_of_mem stat (counts.known standing isStanding)
  · intro standing isStanding sameStat
    have isSeen := counts.known standing isStanding
    rw [show standing.stat = stat from sameStat] at isSeen
    exact absurd isSeen isNew

theorem healed {present : List Blocker}
    (absent : ∀ blocker ∈ waiting, blocker ∉ present) : Standing.heal present state.2 = state.2 := by
  cases isState : state.2 with
  | none => rfl
  | some standing =>
    have kept : standing.failure.kind.blocker.any present.elem = false := by
      rw [Bool.eq_false_iff]
      intro found
      obtain ⟨blocker, isBlocker, isPresent⟩ := (Option.any_eq_true _ _).mp found
      exact absent blocker (counts.waits standing isState blocker isBlocker) (List.elem_iff.mp isPresent)
    rw [Standing.heal, Option.filter_some, kept]
    rfl

theorem succeeded (sameBytes : Option Int) : Standing.succeed state.1 sameBytes state.2 = none := by
  cases isState : state.2 with
  | none => rfl
  | some standing =>
    rw [Standing.succeed, Option.bind_some, if_pos (counts.blocks standing isState)]

end

theorem start {stat : Stat} (isCurrent : seen.head? = some stat) : Counts seen waiting (stat, none) ⟨none, []⟩ :=
  ⟨isCurrent, by rintro standing ⟨⟩, by rintro standing ⟨⟩, by rintro standing ⟨⟩, by rintro standing ⟨⟩,
    fun _ => rfl⟩

theorem widen (counts : Counts seen waiting state tally) (more : List Blocker) :
    Counts seen (more ++ waiting) state tally := by
  refine { counts with waits := ?_ }
  intro standing isStanding blocker isBlocker
  exact List.mem_append_right more (counts.waits standing isStanding blocker isBlocker)

theorem failed (counts : Counts seen waiting state tally) (run : Int) {failure : Option ScanFailure}
    (blocking : ∀ found ∈ failure, stageBlocksIndexing found.stage = true) :
    Counts seen ((failure.bind fun found => found.kind.blocker).toList ++ waiting)
      (state.1, Standing.record state.1 run failure state.2) (tally.fail run failure) := by
  have widened := counts.widen (failure.bind fun found => found.kind.blocker).toList
  cases failure with
  | none => exact widened
  | some failure =>
    unfold Standing.record Tally.fail
    dsimp only
    rw [blocking failure rfl, Bool.true_and]
    cases isClass : failure.kind.persistedClass with
    | none => exact widened
    | some errorClass =>
      rw [Option.isNone_some, if_neg Bool.false_ne_true, Option.isSome_some, if_pos rfl]
      refine ⟨counts.current, ?_, ?_, ?_, ?_, ?_⟩
      · rintro standing ⟨⟩
        exact blocking failure rfl
      · rintro standing ⟨⟩
        exact List.mem_of_mem_head? counts.current
      · rintro standing ⟨⟩ blocker isBlocker
        apply List.mem_append_left
        exact Option.mem_toList.mpr isBlocker
      · rintro standing ⟨⟩ _
        congr 1
        cases isState : state.2 with
        | none =>
          have isTally := counts.elsewhere (by rw [isState]; rintro standing ⟨⟩)
          rw [isTally]
          rfl
        | some old =>
          dsimp only
          by_cases sameStat : old.stat = state.1
          · rw [counts.here old isState sameStat, if_pos sameStat]
          · have isTally := counts.elsewhere (by
              rw [isState]
              rintro standing ⟨⟩
              exact sameStat)
            rw [isTally, if_neg sameStat]
            rfl
      · intro other
        exact absurd rfl (other _ rfl)

end Counts

theorem step_counts {begun : List Int} {seen : List Stat} {waiting : List Blocker}
    {state : Stat × Option Standing} {tally : Tally} (tells : Tells begun path state)
    (counts : Counts seen waiting state tally) {event : Event} {later : List Event}
    (plain : Plain seen waiting (event :: later)) :
    ∃ seen waiting, Counts seen waiting (Standing.step state event) (tally.step path event) ∧
      Plain seen waiting later := by
  cases event with
  | changed stat =>
    rw [Plain] at plain
    rw [Tally.step, tells.sameStat]
    split at plain
    · rename_i same
      rw [counts.current, Option.some.injEq] at same
      rw [if_pos same.symm]
      refine ⟨seen, waiting, ?_, plain⟩
      rw [Standing.step, ← same]
      exact counts
    · rename_i other
      have differs : stat ≠ state.1 := by
        intro same
        exact other (by rw [counts.current, same])
      rw [if_neg differs]
      exact ⟨stat :: seen, waiting, counts.changed plain.1, plain.2⟩
  | healed present =>
    rw [Plain] at plain
    refine ⟨seen, waiting, ?_, plain.2⟩
    rw [Standing.step, counts.healed plain.1]
    exact counts
  | scanned run outcome =>
    have sameTest := tells.suppressed
    cases outcome with
    | failed failure =>
      rw [Plain] at plain
      refine ⟨seen, _, ?_, plain.2⟩
      rw [Standing.step, Standing.scan, Tally.step, ← sameTest]
      cases path.suppressed with
      | true =>
        rw [if_pos rfl, if_pos rfl]
        exact counts.widen _
      | false => exact counts.failed run plain.1
    | succeeded sameBytes audit =>
      rw [Plain] at plain
      refine ⟨seen, waiting, ?_, plain.2⟩
      rw [Standing.step, Standing.scan, Tally.step, ← sameTest, plain.1]
      cases path.suppressed with
      | true => exact counts
      | false =>
        rw [if_neg Bool.false_ne_true, if_neg Bool.false_ne_true, counts.succeeded]
        exact .start counts.current

theorem count_confirmed {begun : List Int} {seen : List Stat} {waiting : List Blocker}
    {state : Stat × Option Standing} {tally : Tally} (tells : Tells begun path state)
    (counts : Counts seen waiting state tally) (sequential : Sequential begun events)
    (plain : Plain seen waiting events) :
    (events.foldl Path.step path).suppressed = true ↔ (tally.count path events).Confirmed := by
  induction events generalizing begun seen waiting path state tally with
  | nil =>
    rw [List.foldl_nil, tells.suppressed]
    exact counts.confirmed_iff
  | cons event later ih =>
    obtain ⟨begun, tells', sequential⟩ := tells.step sequential
    obtain ⟨seen, waiting, counts', plain⟩ := step_counts tells counts plain
    exact ih tells' counts' sequential plain

/-- In a plain history the ledger suppresses what is confirmed and nothing else. -/
theorem plain_suppressed_iff (stat : Stat) (sequential : Sequential [] events) (plain : Plain [stat] [] events) :
    (Path.run stat events).suppressed = true ↔ (Tally.after stat events).Confirmed :=
  count_confirmed (.start stat) (.start rfl) sequential plain

/-- What suppresses a path is the verdict that stands, confirmed by enough runs and about the pair that the file
has now. New bytes are attempted. A plain history suppresses what its count of failures confirms. -/
theorem suppresses_confirmed (stat : Stat) (events : List Event) (sequential : Sequential [] events) :
    ((Path.run stat events).suppressed = true ↔
        ∃ standing ∈ (Standing.after stat events).2, standing.Suppresses (Path.run stat events).stat) ∧
      (∀ fresh, fresh ∉ pairs stat events → (Path.run stat (events ++ [.changed fresh])).suppressed = false) ∧
      (Plain [stat] [] events →
        ((Path.run stat events).suppressed = true ↔ (Tally.after stat events).Confirmed)) := by
  refine ⟨?_, fun fresh isFresh => new_bytes_attempted stat events isFresh, plain_suppressed_iff stat sequential⟩
  rw [suppressed_by_standing stat sequential, Standing.suppressed, Option.any_eq_true]
  constructor
  · rintro ⟨standing, isStanding, suppresses⟩
    exact ⟨standing, isStanding, decide_eq_true_iff.mp suppresses⟩
  · rintro ⟨standing, isStanding, suppresses⟩
    exact ⟨standing, isStanding, decide_eq_true_iff.mpr suppresses⟩

def noon : Stat := ⟨"2024-05-01T12:00:00", 4096⟩

def evening : Stat := ⟨"2024-05-01T18:00:00", 4096⟩

def unreadable : ScanFailure := ⟨"metadata", .input, 2⟩

def waitsForPdfium : ScanFailure := ⟨"metadata", .blocked .pdfium, 1⟩

def undecodable : ScanFailure := ⟨stageDecode, .input, 1⟩

/-- Two runs confirm it, and the third leaves it alone. -/
def failsTwice : List Event :=
  [.scanned 1 (.failed (some unreadable)), .scanned 2 (.failed (some unreadable)), .scanned 3 (.failed none)]

theorem fails_twice_sequential : Sequential [] failsTwice := by
  simp [Sequential, failsTwice]

theorem suppresses_confirmed_twice :
    Sequential [] failsTwice ∧
      ((Path.run noon failsTwice).suppressed = true ↔
        ∃ standing ∈ (Standing.after noon failsTwice).2, standing.Suppresses (Path.run noon failsTwice).stat) ∧
      (∀ fresh, fresh ∉ pairs noon failsTwice →
        (Path.run noon (failsTwice ++ [.changed fresh])).suppressed = false) ∧
      (Plain [noon] [] failsTwice →
        ((Path.run noon failsTwice).suppressed = true ↔ (Tally.after noon failsTwice).Confirmed)) :=
  ⟨fails_twice_sequential, suppresses_confirmed noon failsTwice fails_twice_sequential⟩

example : (Path.run noon failsTwice).suppressed = true := by decide +kernel

/-- The dependency binds: the failure still counts, and the path is attempted. -/
def healedHistory : List Event := [.scanned 1 (.failed (some waitsForPdfium)), .healed [.pdfium]]

/-- The pair comes back: nothing failed since, and the path is suppressed. -/
def restoredHistory : List Event :=
  [.scanned 1 (.failed (some ⟨"metadata", .input, 1⟩)), .changed evening, .changed noon]

/-- The run that indexed the file counts towards the verdict of the run after it. -/
def auditedHistory : List Event :=
  [.scanned 1 (.succeeded none (some undecodable)), .scanned 2 (.failed (some unreadable))]

theorem count_does_not_decide :
    (Sequential [] healedHistory ∧ (Path.run noon healedHistory).suppressed = false ∧
        (Tally.after noon healedHistory).Confirmed) ∧
      (Sequential [] restoredHistory ∧ (Path.run noon restoredHistory).suppressed = true ∧
        ¬(Tally.after noon restoredHistory).Confirmed) ∧
      Sequential [] auditedHistory ∧ (Path.run noon auditedHistory).suppressed = true ∧
        ¬(Tally.after noon auditedHistory).Confirmed := by
  have healed : Tally.after noon healedHistory = ⟨some waitsForPdfium, [1]⟩ := by decide +kernel
  have restored : Tally.after noon restoredHistory = ⟨none, []⟩ := by decide +kernel
  have audited : Tally.after noon auditedHistory = ⟨some unreadable, [2]⟩ := by decide +kernel
  refine ⟨⟨?_, by decide +kernel, ?_⟩, ⟨?_, by decide +kernel, ?_⟩, ?_, by decide +kernel, ?_⟩
  · simp [Sequential, healedHistory]
  · rw [healed]
    exact ⟨waitsForPdfium, rfl, by decide⟩
  · simp [Sequential, restoredHistory]
  · rw [restored]
    rintro ⟨failure, ⟨⟩, -⟩
  · simp [Sequential, auditedHistory]
  · rw [audited]
    rintro ⟨failure, ⟨⟩, enough⟩
    revert enough
    decide

end Panoptikon.Scan
