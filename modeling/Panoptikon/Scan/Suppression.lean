import Mathlib.Data.Option.Basic
import Mathlib.Data.List.Nodup
import Panoptikon.Scan.FailureLedger

/-!
# Which failures suppress a path

What the ledger is for: the latest verdict that stands, with the bytes it is about and the
runs that have come to it. The row counts those runs.
-/

namespace Panoptikon.Scan

/-- The latest verdict, the pair it is about, and the distinct runs that found the file failing there. -/
structure Standing where
  failure : ScanFailure
  stat : Stat
  runs : List Int

/-- A run counts once. -/
def confirm (runs : List Int) (run : Int) : List Int := if runs.elem run then runs else run :: runs

namespace Standing

def Suppresses (standing : Standing) (stat : Stat) : Prop :=
  stageBlocksIndexing standing.failure.stage = true ∧ standing.failure.skipAfter ≤ standing.runs.length ∧
    standing.stat = stat

instance (standing : Standing) (stat : Stat) : Decidable (standing.Suppresses stat) :=
  inferInstanceAs (Decidable (_ ∧ _ ∧ _))

/-- A verdict replaces the one before it, and takes its runs along if it is about the same bytes. -/
def record (stat : Stat) (run : Int) (failure : Option ScanFailure) (standing : Option Standing) : Option Standing :=
  match failure with
  | none => standing
  | some failure =>
      if failure.kind.persistedClass.isNone then standing
      else some ⟨failure, stat,
        match standing with
        | none => [run]
        | some old => if old.stat = stat then confirm old.runs run else [run]⟩

/-- A success ends a verdict that kept the file out, or that was about other bytes. Bytes that are proven
to be the same take an audited verdict along. -/
def succeed (stat : Stat) (sameBytes : Option Int) (standing : Option Standing) : Option Standing :=
  standing.bind fun old =>
    if stageBlocksIndexing old.failure.stage then none
    else
      match sameBytes with
      | some realSize => some { old with stat := { stat with fileSize := realSize } }
      | none => if old.stat = stat then some old else none

/-- A verdict that waits for a dependency ends when the dependency binds. -/
def heal (present : List Blocker) (standing : Option Standing) : Option Standing :=
  standing.filter fun old => !old.failure.kind.blocker.any present.elem

def suppressed (stat : Stat) (standing : Option Standing) : Bool :=
  standing.any fun old => old.Suppresses stat

def scan (stat : Stat) (run : Int) (outcome : Outcome) (standing : Option Standing) : Option Standing :=
  if suppressed stat standing then standing
  else
    match outcome with
    | .failed failure => record stat run failure standing
    | .succeeded sameBytes audit => record stat run audit (succeed stat sameBytes standing)

def step (state : Stat × Option Standing) : Event → Stat × Option Standing
  | .changed stat => (stat, state.2)
  | .healed present => (state.1, heal present state.2)
  | .scanned run outcome => (state.1, scan state.1 run outcome state.2)

def after (stat : Stat) (events : List Event) : Stat × Option Standing := events.foldl step (stat, none)

end Standing

/-- What a row tells of a verdict; `begun` are the runs so far, the last one first. -/
structure Records (begun : List Int) (row : ScanErrorRow) (standing : Standing) : Prop where
  stat : row.stat = standing.stat
  stage : row.stage = standing.failure.stage
  errorClass : standing.failure.kind.persistedClass = some row.errorClass
  blocker : row.blocker = standing.failure.kind.blocker
  skipAfter : row.skipAfter = standing.failure.skipAfter
  attempts : row.attempts = standing.runs.length
  known : ∀ run ∈ standing.runs, run ∈ begun
  latest : ∃ last ∈ standing.runs, row.lastScanId = some last ∧
    ∀ newest ∈ begun.head?, newest ∈ standing.runs → last = newest

section Refinement

variable {begun : List Int} {run : Int} {row : ScanErrorRow} {standing : Standing} {stat : Stat}
  {rows : Option ScanErrorRow} {standings : Option Standing}

theorem ScanErrorRow.suppresses_iff :
    row.suppresses stat = true ↔
      stageBlocksIndexing row.stage = true ∧ row.skipAfter ≤ row.attempts ∧ row.stat = stat := by
  rw [ScanErrorRow.suppresses, Bool.and_eq_true, Bool.and_eq_true, decide_eq_true_iff, decide_eq_true_iff, and_assoc]

theorem Records.suppresses_iff (records : Records begun row standing) (stat : Stat) :
    row.suppresses stat = true ↔ standing.Suppresses stat := by
  rw [ScanErrorRow.suppresses_iff, records.stage, records.skipAfter, records.attempts, records.stat]
  rfl

theorem Records.begin (records : Records begun row standing) (fresh : run ∉ begun) :
    Records (run :: begun) row standing := by
  obtain ⟨last, isRun, isLast, -⟩ := records.latest
  refine { records with known := ?_, latest := ⟨last, isRun, isLast, ?_⟩ }
  · intro other member
    exact List.mem_cons_of_mem run (records.known other member)
  · intro newest isNewest member
    cases isNewest
    exact absurd (records.known run member) fresh

theorem suppressed_records (records : Option.Rel (Records begun) rows standings) (stat : Stat) :
    (rows.any fun row => row.suppresses stat) = Standing.suppressed stat standings := by
  cases records with
  | none => rfl
  | some related =>
    rw [Standing.suppressed, Option.any_some, Option.any_some, Bool.eq_iff_iff, decide_eq_true_iff]
    exact related.suppresses_iff stat

theorem mem_confirm {runs : List Int} : run ∈ confirm runs run := by
  unfold confirm
  split
  · rename_i member
    exact List.elem_iff.mp member
  · exact List.mem_cons_self

theorem confirm_known {runs : List Int} (known : ∀ other ∈ runs, other ∈ begun) (isRun : run ∈ begun) :
    ∀ other ∈ confirm runs run, other ∈ begun := by
  unfold confirm
  split
  · exact known
  · exact List.forall_mem_cons.mpr ⟨isRun, known⟩

/-- The upsert counts the run that is under way unless the row has it already. -/
theorem attempts_count (records : Records begun row standing) (isNewest : begun.head? = some run) :
    attemptsAfter row stat (some run) =
      (if standing.stat = stat then confirm standing.runs run else [run]).length := by
  obtain ⟨last, isRun, isLast, newest⟩ := records.latest
  unfold attemptsAfter
  rw [records.stat]
  by_cases same : standing.stat = stat
  · rw [if_neg (not_not.mpr same), if_pos same, isLast, confirm, records.attempts]
    by_cases again : run ∈ standing.runs
    · have isSame := newest run isNewest again
      rw [if_neg (by rw [isSame]; exact not_not.mpr rfl), if_pos (List.elem_iff.mpr again)]
    · have differs : some last ≠ some run := by
        intro equal
        exact again (Option.some.inj equal ▸ isRun)
      have absent : ¬List.elem run standing.runs = true := by
        rw [List.elem_iff]
        exact again
      rw [if_pos differs, if_neg absent, List.length_cons]
      rfl
  · rw [if_pos same, if_neg same]
    rfl

theorem record_records (records : Option.Rel (Records begun) rows standings) (isNewest : begun.head? = some run)
    (stat : Stat) (failure : Option ScanFailure) :
    Option.Rel (Records begun) (failFile stat run failure rows) (Standing.record stat run failure standings) := by
  cases failure with
  | none => exact records
  | some failure =>
    unfold failFile upsertScanError Standing.record
    dsimp only
    cases isClass : failure.kind.persistedClass with
    | none => exact records
    | some errorClass =>
      have isRun : run ∈ begun := List.mem_of_mem_head? isNewest
      have only : ∀ newest ∈ begun.head?, run = newest := by
        intro newest isHead
        rw [isNewest] at isHead
        exact Option.some.inj isHead
      rw [Option.isNone_some, if_neg Bool.false_ne_true]
      cases records with
      | none =>
        apply Option.Rel.some
        refine ⟨rfl, rfl, isClass, rfl, rfl, rfl, ?_, run, List.mem_singleton_self run, rfl, ?_⟩
        · intro other member
          rw [List.mem_singleton.mp member]
          exact isRun
        · exact fun newest isHead _ => only newest isHead
      | some related =>
        rename_i row standing
        apply Option.Rel.some
        refine ⟨rfl, rfl, isClass, rfl, rfl, ?_, ?_, run, ?_, rfl, fun newest isHead _ => only newest isHead⟩
        · exact attempts_count related isNewest
        · dsimp only
          split
          · exact confirm_known related.known isRun
          · intro other member
            rw [List.mem_singleton.mp member]
            exact isRun
        · dsimp only
          split
          · exact mem_confirm
          · exact List.mem_singleton_self run

/-- What a success leaves of the row. -/
def succeedRow (stat : Stat) (sameBytes : Option Int) (rows : Option ScanErrorRow) : Option ScanErrorRow :=
  clearScanError (pinned stat sameBytes rows) rows (rekeyAuditScanError stat sameBytes rows rows)

theorem succeed_row_blocking (blocks : stageBlocksIndexing row.stage = true) (sameBytes : Option Int) :
    succeedRow stat sameBytes (some row) = none := by
  have unpinned : pinned stat sameBytes (some row) = false := by
    simp only [pinned, Option.any_some, ScanErrorRow.clearedBySuccess, blocks, Bool.true_or, Bool.not_true,
      Bool.and_false, Bool.or_false]
  rw [succeedRow, unpinned]
  rfl

theorem succeed_row_audit (audited : stageBlocksIndexing row.stage = false) (sameBytes : Option Int) :
    succeedRow stat sameBytes (some row) =
      match sameBytes with
      | some realSize => some { row with stat := { stat with fileSize := realSize } }
      | none => if row.stat = stat then some row else none := by
  have isPinned : pinned stat sameBytes (some row) = (decide (row.stat = stat) || sameBytes.isSome) := by
    simp only [pinned, Option.any_some, ScanErrorRow.clearedBySuccess, audited, Bool.false_or, Bool.not_false,
      Bool.and_true, ne_eq, decide_not, Bool.not_not]
  rw [succeedRow, isPinned]
  cases sameBytes with
  | some realSize =>
    simp only [rekeyAuditScanError, Option.any_some, audited, Bool.not_false, ↓reduceIte, rekeyScanError,
      Option.map_some, Option.isSome_some, Bool.or_true, clearScanError, Bool.true_or]
  | none =>
    simp only [rekeyAuditScanError, Option.isSome_none, Bool.or_false, clearScanError, Option.isNone_some,
      decide_eq_true_eq]

theorem succeed_records (records : Option.Rel (Records begun) rows standings) (stat : Stat)
    (sameBytes : Option Int) :
    Option.Rel (Records begun) (succeedRow stat sameBytes rows) (Standing.succeed stat sameBytes standings) := by
  cases records with
  | none =>
    have stays : succeedRow stat sameBytes none = none := by
      unfold succeedRow rekeyAuditScanError
      cases sameBytes <;> rfl
    rw [stays]
    exact .none
  | some related =>
    rename_i row standing
    rw [Standing.succeed, Option.bind_some, ← related.stage]
    cases blocks : stageBlocksIndexing row.stage with
    | true =>
      rw [succeed_row_blocking blocks, if_pos rfl]
      exact .none
    | false =>
      rw [succeed_row_audit blocks, if_neg Bool.false_ne_true, ← related.stat]
      cases sameBytes with
      | some realSize => exact .some { related with stat := rfl }
      | none =>
        dsimp only
        split
        · exact .some related
        · exact .none

theorem heal_records (records : Option.Rel (Records begun) rows standings) (present : List Blocker) :
    Option.Rel (Records begun) (deleteBlockedRows present rows) (Standing.heal present standings) := by
  cases records with
  | none => exact .none
  | some related =>
    rename_i row standing
    have sameTest : (decide (row.errorClass = "blocked") && row.blocker.any present.elem) =
        standing.failure.kind.blocker.any present.elem := by
      rw [related.blocker]
      have isClass := related.errorClass
      cases isKind : standing.failure.kind with
      | blocked blocker =>
        rw [isKind] at isClass
        rw [← Option.some.inj isClass]
        rfl
      | generic | input | resource => exact Bool.and_false _
    unfold deleteBlockedRows Standing.heal
    rw [Option.filter_some, Option.filter_some, sameTest]
    split
    · exact .some related
    · exact .none

theorem scan_records (records : Option.Rel (Records begun) rows standings) (isNewest : begun.head? = some run)
    (stat : Stat) (outcome : Outcome) :
    Option.Rel (Records begun) (scanPath stat run outcome rows) (Standing.scan stat run outcome standings) := by
  unfold scanPath Standing.scan
  dsimp only
  rw [suppressed_records records stat]
  split
  · exact records
  · cases outcome with
    | failed failure => exact record_records records isNewest stat failure
    | succeeded sameBytes audit =>
      exact record_records (succeed_records records stat sameBytes) isNewest stat audit

/-- The ledger of the path tells of the verdict that stands. -/
structure Tells (begun : List Int) (path : Path) (state : Stat × Option Standing) : Prop where
  sameStat : path.stat = state.1
  records : Option.Rel (Records begun) path.row state.2

namespace Tells

variable {path : Path} {state : Stat × Option Standing}

theorem suppressed (tells : Tells begun path state) : path.suppressed = Standing.suppressed state.1 state.2 := by
  rw [← tells.sameStat]
  exact suppressed_records tells.records path.stat

theorem begin (tells : Tells begun path state) (fresh : run ∉ begun) : Tells (run :: begun) path state := by
  refine ⟨tells.sameStat, ?_⟩
  have records := tells.records
  generalize path.row = rows, state.2 = standings at records
  cases records with
  | none => exact .none
  | some related => exact .some (related.begin fresh)

theorem scan (tells : Tells begun path state) (isNewest : begun.head? = some run) (outcome : Outcome) :
    Tells begun (path.step (.scanned run outcome)) (Standing.step state (.scanned run outcome)) := by
  refine ⟨tells.sameStat, ?_⟩
  rw [Path.step, Standing.step, ← tells.sameStat]
  exact scan_records tells.records isNewest path.stat outcome

theorem step (tells : Tells begun path state) {event : Event} {later : List Event}
    (sequential : Sequential begun (event :: later)) :
    ∃ now, Tells now (path.step event) (Standing.step state event) ∧ Sequential now later := by
  cases event with
  | changed stat => exact ⟨begun, ⟨rfl, tells.records⟩, sequential⟩
  | healed present => exact ⟨begun, ⟨tells.sameStat, heal_records tells.records present⟩, sequential⟩
  | scanned run outcome =>
    rw [Sequential] at sequential
    split at sequential
    · rename_i isNewest
      exact ⟨begun, tells.scan isNewest outcome, sequential⟩
    · exact ⟨run :: begun, (tells.begin sequential.1).scan rfl outcome, sequential.2⟩

theorem after (tells : Tells begun path state) {events : List Event} (sequential : Sequential begun events) :
    ∃ now, Tells now (events.foldl Path.step path) (events.foldl Standing.step state) := by
  induction events generalizing begun path state with
  | nil => exact ⟨begun, tells⟩
  | cons event later ih =>
    obtain ⟨now, related, rest⟩ := tells.step sequential
    exact ih related rest

theorem start (stat : Stat) : Tells [] ⟨stat, none⟩ (stat, none) := ⟨rfl, .none⟩

end Tells

end Refinement

/-- A path is suppressed by the verdict that stands, and by no other count. -/
theorem suppressed_by_standing (stat : Stat) {events : List Event} (sequential : Sequential [] events) :
    (Path.run stat events).suppressed =
      Standing.suppressed (Path.run stat events).stat (Standing.after stat events).2 := by
  obtain ⟨begun, tells⟩ := (Tells.start stat).after sequential
  have suppressed := tells.suppressed
  rw [← tells.sameStat] at suppressed
  exact suppressed

end Panoptikon.Scan
