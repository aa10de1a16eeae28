import Panoptikon.Pql.MatchFilter

/-!
# The two stages of the file-scan filter

The scanner asks its filter twice: of what a stat tells, and of the whole row
once the file is read. A column that a row does not have is skipped, so a
condition passes a partial row when it passes the whole one, and a negated
condition may not.
-/

namespace Panoptikon.Jobs

open Pql

/-- What the scanner knows of a file before it reads it. -/
structure ScannedFile where
  path : String
  filename : String
  lastModified : String
  size : Int
  mimeType : String

/-- What it knows of the file afterwards; `ItemScanMeta` with the hashes. -/
structure ItemScanMeta where
  md5 : String
  sha256 : String
  width : Option Int
  height : Option Int
  duration : Option ℚ
  audioTracks : Option Int
  videoTracks : Option Int
  subtitleTracks : Option Int

/-- The row of the first stage. -/
def ScannedFile.partialRow (file : ScannedFile) : MatchValue := fun column =>
  match column with
  | .lastModified => some file.lastModified
  | .size => some file.size
  | .path => some file.path
  | .filename => some file.filename
  | .type => some file.mimeType
  | _ => none

/-- The row of the second stage. -/
def ScannedFile.fullRow (file : ScannedFile) (metadata : ItemScanMeta) : MatchValue := fun column =>
  match column with
  | .lastModified => some file.lastModified
  | .size => some file.size
  | .path => some file.path
  | .filename => some file.filename
  | .type => some file.mimeType
  | .md5 => some metadata.md5
  | .sha256 => some metadata.sha256
  | .width => metadata.width
  | .height => metadata.height
  | .duration => metadata.duration
  | .audioTracks => metadata.audioTracks
  | .videoTracks => metadata.videoTracks
  | .subtitleTracks => metadata.subtitleTracks
  | _ => none

def passesFilescanFilterStage1 (filter : Option Match) (file : ScannedFile) : Bool :=
  match filter with
  | none => true
  | some filter => evaluateMatch filter file.partialRow

def passesFilescanFilterStage2 (filter : Option Match) (file : ScannedFile) (metadata : ItemScanMeta) : Bool :=
  match filter with
  | none => true
  | some filter => evaluateMatch filter (file.fullRow metadata)

/-- A test of one column. -/
structure ColumnTest where
  column : Column
  passes : FieldValue → Bool

def operandTests : MatchOp × Operand → List ColumnTest
  | (op, .value values) =>
      (collectMatchValueFields values).map fun field => ⟨field.1, fun value => compareField value field.2 op⟩
  | (op, .list values) =>
      (collectMatchValuesFields values).map fun field => ⟨field.1, fun value => compareFieldList value field.2 op⟩

def opsTests (ops : MatchOps) : List ColumnTest := ops.operands.flatMap operandTests

/-- The value of a row in a column -/
def fieldOf (row : MatchValue) (column : Column) : Option FieldValue := (row column).map column.kind.field

theorem lookup_fields (row : MatchValue) (column : Column) :
    (collectMatchValueFields row).lookup column = fieldOf row column := by
  have from_any (columns : List Column) (distinct : columns.Nodup) (isIn : column ∈ columns) :
      List.lookup column (columns.filterMap fun column => (row column).map fun value =>
        (column, column.kind.field value)) = fieldOf row column := by
    induction columns with
    | nil => cases isIn
    | cons first rest ih =>
      rw [List.nodup_cons] at distinct
      have absent (none_ : column ∉ rest) : List.lookup column (rest.filterMap fun column =>
          (row column).map fun value => (column, column.kind.field value)) = none := by
        rw [List.lookup_eq_none_iff]
        intro pair member
        obtain ⟨other, isOther, found⟩ := List.mem_filterMap.mp member
        obtain ⟨value, -, rfl⟩ := Option.map_eq_some_iff.mp found
        rw [bne_iff_ne]
        rintro rfl
        exact none_ isOther
      rcases List.mem_cons.mp isIn with rfl | later
      · cases found : row column with
        | none =>
          rw [List.filterMap_cons_none (by rw [found]; rfl), absent distinct.1, fieldOf, found]
          rfl
        | some value =>
          rw [List.filterMap_cons_some (b := (column, column.kind.field value)) (by rw [found]; rfl),
            List.lookup_cons, beq_self_eq_true, fieldOf, found]
          rfl
      · have other : column ≠ first := fun same => distinct.1 (same ▸ later)
        cases found : row first with
        | none =>
          rw [List.filterMap_cons_none (by rw [found]; rfl)]
          exact ih distinct.2 later
        | some value =>
          rw [List.filterMap_cons_some (b := (first, first.kind.field value)) (by rw [found]; rfl),
            List.lookup_cons, beq_eq_false_iff_ne.mpr other]
          exact ih distinct.2 later
  exact from_any Column.collected (by decide) (Column.mem_collected column)

/-- The tests on columns that the row has all pass. -/
def Passes (row : MatchValue) (tests : List ColumnTest) : Prop :=
  ∀ test ∈ tests, ∀ value, fieldOf row test.column = some value → test.passes value = true

theorem evaluate_operand_tests (row : MatchValue) (entry : MatchOp × Operand) :
    evaluateOperand (collectMatchValueFields row) entry =
      (operandTests entry).filterMap fun test => (fieldOf row test.column).map test.passes := by
  obtain ⟨op, operand⟩ := entry
  cases operand with
  | value values =>
    rw [evaluateOperand, evaluateMatchValues, operandTests, List.filterMap_map]
    apply List.filterMap_congr
    intro field _
    rw [lookup_fields]
    rfl
  | list values =>
    rw [evaluateOperand, evaluateMatchValueLists, operandTests, List.filterMap_map]
    apply List.filterMap_congr
    intro field _
    rw [lookup_fields]
    rfl

theorem evaluate_ops_iff (ops : MatchOps) (row : MatchValue) :
    evaluateMatchOps ops (collectMatchValueFields row) = true ↔ Passes row (opsTests ops) := by
  have results : ops.operands.flatMap (evaluateOperand (collectMatchValueFields row)) =
      (opsTests ops).filterMap fun test => (fieldOf row test.column).map test.passes := by
    rw [opsTests, List.filterMap_flatMap]
    apply List.flatMap_congr
    intro entry _
    exact evaluate_operand_tests row entry
  have conjunction (outcomes : List Bool) : (if outcomes.isEmpty then true else outcomes.all id) = outcomes.all id := by
    cases outcomes <;> rfl
  unfold evaluateMatchOps
  rw [results, conjunction, List.all_eq_true]
  constructor
  · intro all test isTest value isValue
    apply all
    apply List.mem_filterMap.mpr
    exact ⟨test, isTest, by rw [isValue]; rfl⟩
  · intro passes outcome isOutcome
    obtain ⟨test, isTest, found⟩ := List.mem_filterMap.mp isOutcome
    obtain ⟨value, isValue, rfl⟩ := Option.map_eq_some_iff.mp found
    exact passes test isTest value isValue

/-- What the part has, the row has. -/
def PartOf (part row : MatchValue) : Prop :=
  ∀ column value, fieldOf part column = some value → fieldOf row column = some value

theorem partial_part_of_full (file : ScannedFile) (metadata : ItemScanMeta) :
    PartOf file.partialRow (file.fullRow metadata) := by
  intro column value isField
  cases column <;> first | exact isField | cases isField

theorem Passes.part {part row : MatchValue} (partOf : PartOf part row) {tests : List ColumnTest}
    (passes : Passes row tests) : Passes part tests :=
  fun test isTest value isField => passes test isTest value (partOf test.column value isField)

/-- The tests on the columns that the part does not have -/
def PassesBeyond (part row : MatchValue) (tests : List ColumnTest) : Prop :=
  ∀ test ∈ tests, fieldOf part test.column = none → ∀ value, fieldOf row test.column = some value →
    test.passes value = true

theorem passes_beyond_iff {part row : MatchValue} (partOf : PartOf part row) {tests : List ColumnTest}
    (passes : Passes part tests) : Passes row tests ↔ PassesBeyond part row tests := by
  constructor
  · exact fun all test isTest _ value isField => all test isTest value isField
  · intro beyond test isTest value isField
    cases found : fieldOf part test.column with
    | none => exact beyond test isTest found value isField
    | some known =>
      have same := partOf test.column known found
      rw [isField] at same
      cases same
      exact passes test isTest value found

/-- A negated condition fails on what the first stage knows, or passes what only the second knows. -/
def NegationSettled (filter : Option Match) (file : ScannedFile) (metadata : ItemScanMeta) : Prop :=
  ∀ operand, filter.map Match.match_ = some (.not_ operand) →
    (∃ test ∈ opsTests operand, ∃ value, fieldOf file.partialRow test.column = some value ∧ test.passes value = false) ∨
      PassesBeyond file.partialRow (file.fullRow metadata) (opsTests operand)

theorem stages_agree_iff (filter : Option Match) (file : ScannedFile) (metadata : ItemScanMeta) :
    (passesFilescanFilterStage2 filter file metadata = true → passesFilescanFilterStage1 filter file = true) ↔
      NegationSettled filter file metadata := by
  have part := partial_part_of_full file metadata
  have keeps (ops : MatchOps)
      (full : evaluateMatchOps ops (collectMatchValueFields (file.fullRow metadata)) = true) :
      evaluateMatchOps ops (collectMatchValueFields file.partialRow) = true := by
    rw [evaluate_ops_iff] at full ⊢
    exact full.part part
  cases filter with
  | none => exact iff_of_true (fun _ => rfl) fun _ isNot => by cases isNot
  | some filter =>
      obtain ⟨matches_⟩ := filter
      cases matches_ with
      | ops ops => exact iff_of_true (keeps ops) fun _ isNot => by cases isNot
      | and_ operands =>
          refine iff_of_true (fun full => ?_) fun _ isNot => by cases isNot
          exact List.all_eq_true.mpr fun ops isIn => keeps ops (List.all_eq_true.mp full ops isIn)
      | or_ operands =>
          refine iff_of_true (fun full => ?_) fun _ isNot => by cases isNot
          obtain ⟨ops, isIn, passes⟩ := List.any_eq_true.mp full
          exact List.any_eq_true.mpr ⟨ops, isIn, keeps ops passes⟩
      | not_ operand =>
          have negated (row : MatchValue) : (!evaluateMatchOps operand (collectMatchValueFields row)) = true ↔
              ¬Passes row (opsTests operand) := by
            rw [Bool.not_eq_true', ← evaluate_ops_iff, Bool.not_eq_true]
          have settled : NegationSettled (some ⟨.not_ operand⟩) file metadata ↔
              ¬Passes file.partialRow (opsTests operand) ∨
                PassesBeyond file.partialRow (file.fullRow metadata) (opsTests operand) := by
            have fails : (¬Passes file.partialRow (opsTests operand)) ↔ ∃ test ∈ opsTests operand, ∃ value,
                fieldOf file.partialRow test.column = some value ∧ test.passes value = false := by
              unfold Passes
              push Not
              simp only [ne_eq, Bool.not_eq_true]
            rw [fails]
            constructor
            · exact fun all => all operand rfl
            · rintro either other isNot
              cases isNot
              exact either
          rw [settled]
          change ((!evaluateMatchOps operand (collectMatchValueFields (file.fullRow metadata))) = true →
            (!evaluateMatchOps operand (collectMatchValueFields file.partialRow)) = true) ↔ _
          rw [negated, negated]
          constructor
          · intro sound
            by_cases passes : Passes file.partialRow (opsTests operand)
            · right
              rw [← passes_beyond_iff part passes]
              by_contra fails
              exact sound fails passes
            · exact .inl passes
          · rintro (fails | beyond) _ passes
            · exact fails passes
            · rename_i notFull
              exact notFull ((passes_beyond_iff part passes).mpr beyond)

def exceptHash (sha256 : String) : Match where
  match_ := .not_ { eq := some fun column =>
    match column with
    | .sha256 => some sha256
    | _ => none }

/-- Everything but one content hash is to be scanned: the first stage skips every file. -/
theorem negated_hash_skips : ¬∀ (filter : Option Match) (file : ScannedFile) (metadata : ItemScanMeta),
    passesFilescanFilterStage2 filter file metadata = true → passesFilescanFilterStage1 filter file = true := by
  intro claimed
  have skipped := claimed (some (exceptHash "a"))
    ⟨"/data/cat.png", "cat.png", "2026-01-01T00:00:00", 4096, "image/png"⟩
    ⟨"b", "b", some 1, some 1, none, none, none, none⟩ (by decide +kernel)
  revert skipped
  decide +kernel

end Panoptikon.Jobs
