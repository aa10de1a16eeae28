import Mathlib.Data.List.Dedup
import Mathlib.Algebra.GroupWithZero.Nat
import Mathlib.Algebra.Ring.Int.Defs
import Panoptikon.Foundation.Keyset

/-!
# The work loop of an extraction job

`build_job_pql`, `work_query_keys` and the chunk loop of `run_extraction_job` in
`jobs/extraction.rs`, over the rows that `apply_partition_by` leaves of each
partition, and the rows that the outputs of the job add
(`db/extraction_write.rs`). Each chunk query reads the database as it is then.
-/

namespace Panoptikon.Extraction

open Foundation

structure FileRow where
  id : Nat
  itemId : Nat
deriving DecidableEq

structure ItemData where
  id : Nat
  itemId : Nat
  setterName : String
  dataType : String
  sourceId : Option Nat
  /-- A placeholder has no row in `extracted_text`. -/
  hasText : Bool
deriving DecidableEq

structure Database where
  files : List FileRow
  itemData : List ItemData
  distinct : (files.map FileRow.id).Nodup

inductive TargetEntity where
  | items
  | files
  | text
deriving DecidableEq

structure WorkModel where
  setterName : String
  entity : TargetEntity
  outputType : String
  skipProcessedItems : Bool

/-- The data types of the rows that an output of this type inserts. -/
def outputDataTypes (outputType : String) : List String :=
  if outputType = "tags" then ["tags", "text"]
  else if outputType = "text" then ["text"]
  else if outputType = "clip" then ["clip"]
  else if outputType = "text-embedding" then ["text-embedding"]
  else []

/-- A row that the job may have written. -/
def OwnRow (model : WorkModel) (row : ItemData) : Prop :=
  row.setterName = model.setterName ∧ row.dataType ∈ outputDataTypes model.outputType

/-- A file, with one of the texts of its item when the entity is text. -/
structure Candidate where
  file : FileRow
  data : Option ItemData
deriving DecidableEq

/-- What one chunk query meets: the rows that the job has written by then, the filters other than
`processed_by`, the row a partition shows, and the items that have a file on disk. -/
structure Reading where
  written : List ItemData
  accepts : Candidate → Bool
  pick : List Candidate → Candidate
  chooses : ∀ group, group ≠ [] → pick group ∈ group
  available : Nat → Bool

namespace WorkModel

variable (model : WorkModel)

def candidates (files : List FileRow) (itemData : List ItemData) : List Candidate :=
  match model.entity with
  | .items | .files => files.map fun file => ⟨file, none⟩
  | .text =>
      files.flatMap fun file =>
        (itemData.filter fun data => data.itemId = file.itemId && data.dataType = "text" && data.hasText).map
          fun data => ⟨file, some data⟩

/-- `ProcessedBy`, which a text row is by what was derived from it. -/
def processed (itemData : List ItemData) (candidate : Candidate) : Bool :=
  itemData.any fun row =>
    row.setterName = model.setterName &&
      match model.entity with
      | .items | .files => row.itemId = candidate.file.itemId
      | .text => row.sourceId.isSome && row.sourceId = candidate.data.map ItemData.id

def dataId (candidate : Candidate) : Nat := (candidate.data.map ItemData.id).getD 0

/-- The column of the cursor of `work_query_keys`. -/
def cursorKey (candidate : Candidate) : Nat :=
  match model.entity with
  | .text => dataId candidate
  | .files | .items => candidate.file.id

/-- The column of the work unit. -/
def partitionKey (candidate : Candidate) : Nat :=
  match model.entity with
  | .text => dataId candidate
  | .files => candidate.file.id
  | .items => candidate.file.itemId

def matching (database : Database) (reading : Reading) : List Candidate :=
  let itemData := database.itemData ++ reading.written
  (model.candidates database.files itemData).filter fun candidate =>
    !(model.skipProcessedItems && model.processed itemData candidate) && reading.accepts candidate

structure WorkRow where
  cursorKey : Nat
  partitionKey : Nat
  itemId : Nat
deriving DecidableEq

def row (candidate : Candidate) : WorkRow :=
  ⟨model.cursorKey candidate, model.partitionKey candidate, candidate.file.itemId⟩

/-- One row for each partition; jobs on files do not partition. -/
def workRows (database : Database) (reading : Reading) : List WorkRow :=
  let matching := model.matching database reading
  match model.entity with
  | .files => matching.map model.row
  | .items | .text =>
      (matching.map model.partitionKey).dedup.map fun key =>
        model.row (reading.pick (matching.filter fun candidate => model.partitionKey candidate = key))

end WorkModel

structure LoopState where
  cursor : Int
  dispatched : List Nat
  /-- The work units handed to a task. -/
  tasks : List Nat
deriving DecidableEq

def LoopState.start : LoopState := ⟨-2 ^ 63, [], []⟩

def rowKey (row : WorkModel.WorkRow) : Int := row.cursorKey

/-- One row of a chunk; an item without a file on disk has no input. -/
def dispatchRow (available : Nat → Bool) (state : LoopState) (row : WorkModel.WorkRow) : LoopState :=
  if row.partitionKey ∈ state.dispatched then { state with cursor := rowKey row }
  else
    { cursor := rowKey row
      dispatched := row.partitionKey :: state.dispatched
      tasks := if available row.itemId then state.tasks ++ [row.partitionKey] else state.tasks }

section

variable (model : WorkModel) (database : Database) (readings : Nat → Reading) (chunkRows : Nat)

/-- The rows of a chunk query. -/
def fetchChunk (read : Nat) (cursor : Int) : List WorkModel.WorkRow :=
  page rowKey chunkRows cursor (model.workRows database (readings read))

def afterChunk (read : Nat) (state : LoopState) : LoopState :=
  (fetchChunk model database readings chunkRows read state.cursor).foldl
    (dispatchRow (readings read).available) state

/-- The loop from a read on, when the fuel is enough for it. -/
def workLoop : Nat → Nat → LoopState → Option LoopState
  | 0, _, _ => none
  | fuel + 1, read, state =>
      if (fetchChunk model database readings chunkRows read state.cursor).length < chunkRows then
        some (afterChunk model database readings chunkRows read state)
      else workLoop fuel (read + 1) (afterChunk model database readings chunkRows read state)

end

end Panoptikon.Extraction
