import Mathlib.Data.List.Basic

/-!
# The failure ledger of the scan

One path's row of `scan_errors`, the reads and writes of `db/scan_errors.rs`, and what
a pass of the walker in `jobs/files/mod.rs` does with it. The file is there on every
pass; what an attempt concludes comes with the pass.
-/

namespace Panoptikon.Scan

inductive Blocker where
  | pdfium
  | htmlRenderer
  | ffmpeg
deriving DecidableEq

/-- A generic failure is transient. -/
inductive ApiErrorKind where
  | generic
  | input
  | blocked (blocker : Blocker)
  | resource
deriving DecidableEq

namespace ApiErrorKind

def persistedClass : ApiErrorKind → Option String
  | .generic => none
  | .input => some "input"
  | .blocked _ => some "blocked"
  | .resource => some "resource"

def blocker : ApiErrorKind → Option Blocker
  | .blocked blocker => some blocker
  | _ => none

end ApiErrorKind

/-- The pair that is read from the disk, and the key of a retry. -/
structure Stat where
  lastModified : String
  fileSize : Int
deriving DecidableEq

/-- A classified failure; `skip_after` is its confirmation threshold. -/
structure ScanFailure where
  stage : String
  kind : ApiErrorKind
  skipAfter : Int
deriving DecidableEq

structure ScanErrorRow where
  stat : Stat
  stage : String
  errorClass : String
  blocker : Option Blocker
  skipAfter : Int
  attempts : Int
  lastScanId : Option Int

/-- `STAGE_DECODE` -/
def stageDecode : String := "decode"

/-- The file of a decode failure is indexed all the same. -/
def stageBlocksIndexing (stage : String) : Bool := stage ≠ stageDecode

namespace ScanErrorRow

def suppresses (row : ScanErrorRow) (stat : Stat) : Bool :=
  stageBlocksIndexing row.stage && row.skipAfter ≤ row.attempts && row.stat = stat

def clearedBySuccess (row : ScanErrorRow) (stat : Stat) : Bool :=
  stageBlocksIndexing row.stage || row.stat ≠ stat

end ScanErrorRow

/-- The count of `UPSERT_SQL`: other bytes start over, and one scan counts once. -/
def attemptsAfter (row : ScanErrorRow) (stat : Stat) (scanId : Option Int) : Int :=
  if row.stat ≠ stat then 1
  else if row.lastScanId ≠ scanId then row.attempts + 1
  else row.attempts

/-- Transient failures are refused. -/
def upsertScanError (stat : Stat) (failure : ScanFailure) (scanId : Option Int) (row : Option ScanErrorRow) :
    Option ScanErrorRow :=
  match failure.kind.persistedClass with
  | none => row
  | some errorClass =>
      some
        { stat := stat
          stage := failure.stage
          errorClass := errorClass
          blocker := failure.kind.blocker
          skipAfter := failure.skipAfter
          attempts := (row.map fun old => attemptsAfter old stat scanId).getD 1
          lastScanId := scanId }

def rekeyScanError (stat : Stat) (row : Option ScanErrorRow) : Option ScanErrorRow :=
  row.map fun old => { old with stat := stat }

/-- The row goes when the dependency it waits for binds. -/
def deleteBlockedRows (present : List Blocker) (row : Option ScanErrorRow) : Option ScanErrorRow :=
  row.filter fun old => !(old.errorClass = "blocked" && old.blocker.any present.elem)

/-- What an attempt concludes. A success tells how many bytes were read again when they turned out to be
the bytes of the index, and carries the failure to decode an indexed image. -/
inductive Outcome where
  | failed (failure : Option ScanFailure)
  | succeeded (sameBytes : Option Int) (audit : Option ScanFailure)

/-- `fail_file` -/
def failFile (stat : Stat) (scanId : Int) (failure : Option ScanFailure) (row : Option ScanErrorRow) :
    Option ScanErrorRow :=
  match failure with
  | none => row
  | some failure => upsertScanError stat failure (some scanId) row

/-- The walk pins what a success does not clear, and so does `rekey_audit_scan_error`. -/
def pinned (stat : Stat) (sameBytes : Option Int) (entry : Option ScanErrorRow) : Bool :=
  entry.any fun row => !row.clearedBySuccess stat || sameBytes.isSome && !stageBlocksIndexing row.stage

def rekeyAuditScanError (stat : Stat) (sameBytes : Option Int) (entry row : Option ScanErrorRow) :
    Option ScanErrorRow :=
  match sameBytes with
  | none => row
  | some realSize =>
      if entry.any fun found => !stageBlocksIndexing found.stage then
        rekeyScanError { stat with fileSize := realSize } row
      else row

def clearScanError (isPinned : Bool) (entry row : Option ScanErrorRow) : Option ScanErrorRow :=
  if isPinned || entry.isNone then row else none

/-- The ledger's side of `scan_path` and of what comes of it; `entry` is the preloaded row. -/
def scanPath (stat : Stat) (scanId : Int) (outcome : Outcome) (row : Option ScanErrorRow) : Option ScanErrorRow :=
  let entry := row
  if entry.any fun found => found.suppresses stat then row
  else
    match outcome with
    | .failed failure => failFile stat scanId failure row
    | .succeeded sameBytes audit =>
        let rekeyed := rekeyAuditScanError stat sameBytes entry row
        let cleared := clearScanError (pinned stat sameBytes entry) entry rekeyed
        failFile stat scanId audit cleared

inductive Event where
  /-- The file is written or touched. -/
  | changed (stat : Stat)
  | healed (present : List Blocker)
  | scanned (scanId : Int) (outcome : Outcome)

structure Path where
  stat : Stat
  row : Option ScanErrorRow

namespace Path

def step (path : Path) : Event → Path
  | .changed stat => { path with stat := stat }
  | .healed present => { path with row := deleteBlockedRows present path.row }
  | .scanned scanId outcome => { path with row := scanPath path.stat scanId outcome path.row }

def run (stat : Stat) (events : List Event) : Path := events.foldl step ⟨stat, none⟩

def suppressed (path : Path) : Bool := path.row.any fun row => row.suppresses path.stat

end Path

/-- No run comes back once another has begun; `begun` lists the runs so far, the last one first. -/
def Sequential : List Int → List Event → Prop
  | _, [] => True
  | begun, .scanned scanId _ :: later =>
      if begun.head? = some scanId then Sequential begun later
      else scanId ∉ begun ∧ Sequential (scanId :: begun) later
  | begun, .changed _ :: later => Sequential begun later
  | begun, .healed _ :: later => Sequential begun later

end Panoptikon.Scan
