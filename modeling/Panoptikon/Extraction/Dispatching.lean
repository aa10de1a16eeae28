import Panoptikon.Extraction.WorkLoop

/-!
# Each unit of work is dispatched once

A unit that matches at every chunk query is dispatched exactly once, as long as the
row that shows it does not fall back behind the cursor. The cursor only goes up, so
the loop ends where the rows of the job's own outputs do not go on forever.
-/

namespace Panoptikon.Extraction

open Foundation

variable {model : WorkModel} {database : Database} {readings : Nat → Reading} {chunkRows : Nat}

/-- The unit matches the query of a read. -/
def Matches (model : WorkModel) (database : Database) (reading : Reading) (unit : Nat) : Prop :=
  ∃ candidate ∈ model.matching database reading, model.partitionKey candidate = unit

variable {reading : Reading}

theorem work_row_of {row : WorkModel.WorkRow} (isRow : row ∈ model.workRows database reading) :
    ∃ candidate ∈ model.matching database reading, row = model.row candidate := by
  have grouped : ∀ key ∈ ((model.matching database reading).map model.partitionKey).dedup,
      reading.pick ((model.matching database reading).filter
        fun candidate => model.partitionKey candidate = key) ∈ model.matching database reading := by
    intro key member
    obtain ⟨candidate, isMatch, same⟩ := List.mem_map.mp (List.mem_dedup.mp member)
    refine List.mem_of_mem_filter (reading.chooses _ ?_)
    exact List.ne_nil_of_mem (List.mem_filter.mpr ⟨isMatch, by simpa using same⟩)
  unfold WorkModel.workRows at isRow
  cases entity : model.entity <;> simp only [entity] at isRow
  · obtain ⟨key, member, rfl⟩ := List.mem_map.mp isRow
    exact ⟨_, grouped key member, rfl⟩
  · obtain ⟨candidate, isMatch, rfl⟩ := List.mem_map.mp isRow
    exact ⟨candidate, isMatch, rfl⟩
  · obtain ⟨key, member, rfl⟩ := List.mem_map.mp isRow
    exact ⟨_, grouped key member, rfl⟩

theorem matches_row {unit : Nat} (isMatch : Matches model database reading unit) :
    ∃ row ∈ model.workRows database reading, row.partitionKey = unit := by
  obtain ⟨candidate, listed, same⟩ := isMatch
  have grouped : unit ∈ ((model.matching database reading).map model.partitionKey).dedup :=
    List.mem_dedup.mpr (List.mem_map.mpr ⟨candidate, listed, same⟩)
  have group : (model.matching database reading).filter
      (fun candidate => model.partitionKey candidate = unit) ≠ [] :=
    List.ne_nil_of_mem (List.mem_filter.mpr ⟨listed, by simpa using same⟩)
  have shown := of_decide_eq_true (List.mem_filter.mp (reading.chooses _ group)).2
  unfold WorkModel.workRows
  cases model.entity
  · exact ⟨_, List.mem_map_of_mem grouped, shown⟩
  · exact ⟨_, List.mem_map_of_mem listed, same⟩
  · exact ⟨_, List.mem_map_of_mem grouped, shown⟩

theorem candidate_parts {itemData : List ItemData} {candidate : Candidate}
    (listed : candidate ∈ model.candidates database.files itemData) : candidate.file ∈ database.files ∧
      (model.entity = .text → ∃ data ∈ itemData, candidate.data = some data ∧ data.dataType = "text") := by
  unfold WorkModel.candidates at listed
  cases entity : model.entity <;> simp only [entity] at listed
  · obtain ⟨file, isFile, rfl⟩ := List.mem_map.mp listed
    exact ⟨isFile, nofun⟩
  · obtain ⟨file, isFile, rfl⟩ := List.mem_map.mp listed
    exact ⟨isFile, nofun⟩
  · obtain ⟨file, isFile, inside⟩ := List.mem_flatMap.mp listed
    obtain ⟨data, isData, rfl⟩ := List.mem_map.mp inside
    obtain ⟨stored, isText⟩ := List.mem_filter.mp isData
    simp only [Bool.and_eq_true, decide_eq_true_eq] at isText
    exact ⟨isFile, fun _ => ⟨data, stored, rfl, isText.1.2⟩⟩

theorem same_file {first second : FileRow} (isFirst : first ∈ database.files)
    (isSecond : second ∈ database.files) (same : first.id = second.id) : first = second :=
  List.inj_on_of_nodup_map database.distinct isFirst isSecond same

theorem cursor_key_unit {first second : WorkModel.WorkRow} (isFirst : first ∈ model.workRows database reading)
    (isSecond : second ∈ model.workRows database reading) (same : first.cursorKey = second.cursorKey) :
    first.partitionKey = second.partitionKey := by
  obtain ⟨one, isOne, rfl⟩ := work_row_of isFirst
  obtain ⟨two, isTwo, rfl⟩ := work_row_of isSecond
  have fileOne := (candidate_parts (List.mem_of_mem_filter isOne)).1
  have fileTwo := (candidate_parts (List.mem_of_mem_filter isTwo)).1
  simp only [WorkModel.row, WorkModel.cursorKey, WorkModel.partitionKey] at same ⊢
  cases entity : model.entity <;> simp only [entity] at same ⊢
  · rw [same_file fileOne fileTwo same]
  · exact same
  · exact same

theorem dispatch_row_spec (available : Nat → Bool) (state : LoopState) (row : WorkModel.WorkRow) :
    (dispatchRow available state row).cursor = rowKey row ∧
      ∀ unit, unit ∈ (dispatchRow available state row).dispatched ↔
        unit ∈ state.dispatched ∨ row.partitionKey = unit := by
  unfold dispatchRow
  split
  · rename_i known
    refine ⟨rfl, fun unit => ⟨Or.inl, ?_⟩⟩
    rintro (earlier | rfl)
    · exact earlier
    · exact known
  · refine ⟨rfl, fun unit => ?_⟩
    rw [List.mem_cons, or_comm, eq_comm]

theorem dispatch_rows_spec (available : Nat → Bool) (rows : List WorkModel.WorkRow) (state : LoopState) :
    (rows.foldl (dispatchRow available) state).cursor = lastKey rowKey state.cursor rows ∧
      ∀ unit, unit ∈ (rows.foldl (dispatchRow available) state).dispatched ↔
        unit ∈ state.dispatched ∨ ∃ row ∈ rows, row.partitionKey = unit := by
  induction rows generalizing state with
  | nil => simp [lastKey]
  | cons first rest ih =>
    obtain ⟨cursor, dispatched⟩ := ih (dispatchRow available state first)
    obtain ⟨isKey, isDispatched⟩ := dispatch_row_spec available state first
    rw [List.foldl_cons]
    constructor
    · rw [cursor, isKey]
      cases rest with
      | nil => rfl
      | cons second others => simp [lastKey, List.getLast?_cons]
    · intro unit
      rw [dispatched, isDispatched, or_assoc, List.exists_mem_cons_iff]

/-- Tasks are units that have been dispatched, each once, and a dispatched unit has a task unless its
item had no file. -/
structure Booked (model : WorkModel) (database : Database) (readings : Nat → Reading) (state : LoopState) :
    Prop where
  once : state.tasks.Nodup
  noted : ∀ unit ∈ state.tasks, unit ∈ state.dispatched
  matched : ∀ unit ∈ state.dispatched, ∃ read, Matches model database (readings read) unit
  served : ∀ unit ∈ state.dispatched, unit ∈ state.tasks ∨ ∃ read, ∃ row ∈ model.workRows database (readings read),
    row.partitionKey = unit ∧ (readings read).available row.itemId = false

theorem booked_row {read : Nat} {state : LoopState} {row : WorkModel.WorkRow}
    (booked : Booked model database readings state) (isRow : row ∈ model.workRows database (readings read)) :
    Booked model database readings (dispatchRow (readings read).available state row) := by
  unfold dispatchRow
  split
  · exact ⟨booked.once, booked.noted, booked.matched, booked.served⟩
  · rename_i unknown
    have isMatch : Matches model database (readings read) row.partitionKey := by
      obtain ⟨candidate, listed, rfl⟩ := work_row_of isRow
      exact ⟨candidate, listed, rfl⟩
    refine ⟨?_, fun unit member => ?_, fun unit member => ?_, fun unit member => ?_⟩
    · simp only
      split
      · refine List.nodup_append'.mpr ⟨booked.once, List.nodup_singleton _, ?_⟩
        rw [List.disjoint_singleton]
        exact fun member => unknown (booked.noted _ member)
      · exact booked.once
    · simp only at member
      split at member
      · rcases List.mem_append.mp member with before | last
        · exact List.mem_cons_of_mem _ (booked.noted unit before)
        · rw [List.mem_singleton.mp last]
          exact List.mem_cons_self
      · exact List.mem_cons_of_mem _ (booked.noted unit member)
    · rcases List.mem_cons.mp member with rfl | earlier
      · exact ⟨read, isMatch⟩
      · exact booked.matched unit earlier
    · simp only
      rcases List.mem_cons.mp member with rfl | earlier
      · split
        · exact Or.inl (List.mem_append_right _ (List.mem_singleton_self _))
        · rename_i gone
          exact Or.inr ⟨read, row, isRow, rfl, eq_false_of_ne_true gone⟩
      · refine (booked.served unit earlier).imp_left fun isTask => ?_
        split
        · exact List.mem_append_left _ isTask
        · exact isTask

theorem booked_chunk {read : Nat} {state : LoopState} (booked : Booked model database readings state) :
    Booked model database readings (afterChunk model database readings chunkRows read state) := by
  have rows : ∀ row ∈ fetchChunk model database readings chunkRows read state.cursor,
      row ∈ model.workRows database (readings read) := fun row member => (page_mem member).1
  unfold afterChunk
  generalize fetchChunk model database readings chunkRows read state.cursor = chunk at rows
  induction chunk generalizing state with
  | nil => exact booked
  | cons first rest ih =>
    rw [List.forall_mem_cons] at rows
    exact ih (booked_row booked rows.1) rows.2

/-- The rows that show a unit from one chunk query to the next do not go back. -/
def KeyNeverFalls (model : WorkModel) (database : Database) (readings : Nat → Reading) (unit : Nat) : Prop :=
  ∀ read, ∀ before ∈ model.workRows database (readings read),
    ∀ after ∈ model.workRows database (readings (read + 1)),
      before.partitionKey = unit → after.partitionKey = unit → before.cursorKey ≤ after.cursorKey

theorem key_never_falls (notItems : model.entity ≠ .items) (unit : Nat) :
    KeyNeverFalls model database readings unit := by
  have own : ∀ row read, row ∈ model.workRows database (readings read) → row.cursorKey = row.partitionKey := by
    intro row read isRow
    obtain ⟨candidate, -, rfl⟩ := work_row_of isRow
    simp only [WorkModel.row, WorkModel.cursorKey, WorkModel.partitionKey]
    cases entity : model.entity
    · exact absurd entity notItems
    · rfl
    · rfl
  intro read before isBefore after isAfter first second
  rw [own before read isBefore, own after (read + 1) isAfter, first, second]

/-- A unit that has not been dispatched is still ahead of the cursor. -/
def Ahead (model : WorkModel) (database : Database) (readings : Nat → Reading) (unit read : Nat)
    (state : LoopState) : Prop :=
  unit ∈ state.dispatched ∨ ∀ row ∈ model.workRows database (readings read),
    row.partitionKey = unit → state.cursor < rowKey row

theorem ahead_chunk {unit read : Nat} {state : LoopState} (matchNow : Matches model database (readings read) unit)
    (neverFalls : KeyNeverFalls model database readings unit)
    (ahead : Ahead model database readings unit read state) :
    unit ∈ (afterChunk model database readings chunkRows read state).dispatched ∨
      (fetchChunk model database readings chunkRows read state.cursor).length = chunkRows ∧
        Ahead model database readings unit (read + 1)
          (afterChunk model database readings chunkRows read state) := by
  obtain ⟨cursor, dispatched⟩ := dispatch_rows_spec (readings read).available
    (fetchChunk model database readings chunkRows read state.cursor) state
  rcases ahead with known | after
  · exact Or.inl ((dispatched unit).mpr (Or.inl known))
  · obtain ⟨row, isRow, isUnit⟩ := matches_row matchNow
    by_cases fetched : ∃ other ∈ fetchChunk model database readings chunkRows read state.cursor,
        other.partitionKey = unit
    · exact Or.inl ((dispatched unit).mpr (Or.inr fetched))
    · have later := after row isRow isUnit
      have missing : row ∉ fetchChunk model database readings chunkRows read state.cursor :=
        fun member => fetched ⟨row, member, isUnit⟩
      obtain ⟨full, earlier⟩ := page_leaves_out isRow later missing
      have passed : (afterChunk model database readings chunkRows read state).cursor < rowKey row := by
        unfold afterChunk
        rw [cursor]
        by_cases empty : fetchChunk model database readings chunkRows read state.cursor = []
        · rw [empty]
          exact later
        · obtain ⟨last, member, isLast⟩ := @last_key_mem _ rowKey _ state.cursor empty
          rw [isLast]
          -- A row of the chunk with this key would show the unit itself.
          refine lt_of_le_of_ne (earlier last member) fun same => fetched ⟨last, member, ?_⟩
          have sameKey : last.cursorKey = row.cursorKey := by
            simp only [rowKey] at same
            omega
          rw [← isUnit]
          exact cursor_key_unit (page_mem member).1 isRow sameKey
      refine Or.inr ⟨full, Or.inr fun next isNext sameUnit => lt_of_lt_of_le passed ?_⟩
      have rising := neverFalls read row isRow next isNext isUnit sameUnit
      simpa [rowKey] using rising

theorem dispatched_kept {read unit : Nat} {state : LoopState} (known : unit ∈ state.dispatched) :
    unit ∈ (afterChunk model database readings chunkRows read state).dispatched :=
  ((dispatch_rows_spec _ _ state).2 unit).mpr (Or.inl known)

variable {state final : LoopState}

theorem loop_booked {fuel read : Nat}
    (ended : workLoop model database readings chunkRows fuel read state = some final)
    (booked : Booked model database readings state) : Booked model database readings final := by
  induction fuel generalizing read state with
  | zero => cases ended
  | succ fuel ih =>
    unfold workLoop at ended
    split at ended
    · cases ended
      exact booked_chunk booked
    · exact ih ended (booked_chunk booked)

theorem loop_keeps {fuel read unit : Nat}
    (ended : workLoop model database readings chunkRows fuel read state = some final)
    (known : unit ∈ state.dispatched) : unit ∈ final.dispatched := by
  induction fuel generalizing read state with
  | zero => cases ended
  | succ fuel ih =>
    unfold workLoop at ended
    split at ended
    · cases ended
      exact dispatched_kept known
    · exact ih ended (dispatched_kept known)

/-- The loop does not end before it has dispatched a unit that matches all along. -/
theorem loop_dispatches {fuel read unit : Nat}
    (ended : workLoop model database readings chunkRows fuel read state = some final)
    (throughout : ∀ read, Matches model database (readings read) unit)
    (neverFalls : KeyNeverFalls model database readings unit)
    (ahead : Ahead model database readings unit read state) : unit ∈ final.dispatched := by
  induction fuel generalizing read state with
  | zero => cases ended
  | succ fuel ih =>
    unfold workLoop at ended
    rcases ahead_chunk (throughout read) neverFalls ahead with known | ⟨full, later⟩
    · split at ended
      · cases ended
        exact known
      · exact loop_keeps ended known
    · rw [if_neg (by omega)] at ended
      exact ih ended later

/-- Every full chunk moves the cursor up, and the cursor stays below what bounds the keys. -/
theorem loop_ends {bound : Nat} (positive : 1 ≤ chunkRows)
    (bounded : ∀ read, ∀ row ∈ model.workRows database (readings read), row.cursorKey ≤ bound)
    {fuel read : Nat} {state : LoopState} (enough : ((bound : Int) - state.cursor).toNat < fuel) :
    ∃ final, workLoop model database readings chunkRows fuel read state = some final := by
  induction fuel generalizing read state with
  | zero => exact absurd enough (Nat.not_lt_zero _)
  | succ fuel ih =>
    unfold workLoop
    split
    · exact ⟨_, rfl⟩
    · rename_i full
      have nonempty : fetchChunk model database readings chunkRows read state.cursor ≠ [] := by
        intro empty
        rw [empty, List.length_nil] at full
        omega
      have moved := page_advances nonempty
      obtain ⟨last, member, isLast⟩ := @last_key_mem _ rowKey _ state.cursor nonempty
      have below := bounded read last (page_mem member).1
      have cursor := (dispatch_rows_spec (readings read).available
        (fetchChunk model database readings chunkRows read state.cursor) state).1
      refine ih ?_
      unfold afterChunk
      rw [cursor]
      rw [fetchChunk] at isLast ⊢
      rw [isLast] at moved ⊢
      simp only [rowKey] at moved ⊢
      omega

/-- The job reads texts and writes texts. -/
def WritesText (model : WorkModel) : Prop :=
  model.entity = .text ∧ "text" ∈ outputDataTypes model.outputType

instance (model : WorkModel) : Decidable (WritesText model) := inferInstanceAs (Decidable (_ ∧ _))

/-- What the job writes is no candidate of its own query, unless it reads and writes texts. -/
theorem own_rows_no_candidates (readsOther : ¬WritesText model) {written : List ItemData}
    (own : ∀ row ∈ written, OwnRow model row) : model.candidates database.files (database.itemData ++ written) =
      model.candidates database.files database.itemData := by
  unfold WorkModel.candidates
  cases entity : model.entity
  · rfl
  · rfl
  · have notText : ∀ row ∈ written, row.dataType ≠ "text" := by
      intro row member isText
      exact readsOther ⟨entity, isText ▸ (own row member).2⟩
    simp only
    refine congrArg List.flatten (List.map_congr_left fun file _ => ?_)
    rw [List.filter_append]
    have none : (written.filter fun data =>
        data.itemId = file.itemId && data.dataType = "text" && data.hasText) = [] := by
      rw [List.filter_eq_nil_iff]
      intro row member
      simp [notText row member]
    rw [none, List.append_nil]

theorem matches_initial (readsOther : ¬WritesText model) {unit : Nat}
    (own : ∀ row ∈ reading.written, OwnRow model row) (isMatch : Matches model database reading unit) :
    ∃ candidate ∈ model.candidates database.files database.itemData, model.partitionKey candidate = unit := by
  obtain ⟨candidate, listed, same⟩ := isMatch
  have candidates := List.mem_of_mem_filter listed
  rw [own_rows_no_candidates readsOther own] at candidates
  exact ⟨candidate, candidates, same⟩

theorem le_sum_of_mem {ids : List Nat} {id : Nat} (member : id ∈ ids) : id ≤ ids.sum := by
  induction ids with
  | nil => cases member
  | cons first rest ih =>
    rw [List.sum_cons]
    rcases List.mem_cons.mp member with rfl | later
    · exact Nat.le_add_right _ _
    · exact Nat.le_trans (ih later) (Nat.le_add_left _ _)

/-- The cursor keys of all the chunk queries have a bound when those of the job's own texts do. -/
theorem cursor_keys_bounded (own : ∀ read, ∀ row ∈ (readings read).written, OwnRow model row)
    (finite : WritesText model → ∃ bound, ∀ read, ∀ row ∈ (readings read).written, row.id ≤ bound) :
    ∃ bound, ∀ read, ∀ row ∈ model.workRows database (readings read), row.cursorKey ≤ bound := by
  obtain ⟨written, isBound⟩ : ∃ bound, WritesText model →
      ∀ read, ∀ row ∈ (readings read).written, row.id ≤ bound := by
    by_cases writes : WritesText model
    · obtain ⟨bound, isBound⟩ := finite writes
      exact ⟨bound, fun _ => isBound⟩
    · exact ⟨0, fun holds => absurd holds writes⟩
  refine ⟨(database.files.map FileRow.id).sum + (database.itemData.map ItemData.id).sum + written,
    fun read row isRow => ?_⟩
  obtain ⟨candidate, listed, rfl⟩ := work_row_of isRow
  have candidates := List.mem_of_mem_filter listed
  have isFile := (candidate_parts candidates).1
  have fileBound := le_sum_of_mem (List.mem_map_of_mem (f := FileRow.id) isFile)
  simp only [WorkModel.row, WorkModel.cursorKey]
  cases entity : model.entity <;> simp only
  · omega
  · omega
  · have stored : ∀ data ∈ database.itemData, data.id ≤ (database.itemData.map ItemData.id).sum :=
      fun data member => le_sum_of_mem (List.mem_map_of_mem (f := ItemData.id) member)
    obtain ⟨data, isData, isSome, -⟩ := (candidate_parts candidates).2 entity
    have isId : WorkModel.dataId candidate = data.id := by rw [WorkModel.dataId, isSome]; rfl
    rw [isId]
    by_cases writes : WritesText model
    · rcases List.mem_append.mp isData with before | after
      · have := stored data before
        omega
      · have := isBound writes read data after
        omega
    · rw [own_rows_no_candidates writes (own read)] at candidates
      obtain ⟨other, isOther, same, -⟩ := (candidate_parts candidates).2 entity
      obtain rfl : data = other := Option.some.inj (isSome.symm.trans same)
      have := stored data isOther
      omega

theorem booked_start : Booked model database readings .start :=
  ⟨List.nodup_nil, nofun,
    nofun, nofun⟩

/-- The loop ends. No unit is dispatched twice, and one that matches all along and whose row never
falls back is dispatched once, unless its item has no file on disk. Only a job that reads and
writes texts can meet its own rows. -/
theorem work_loop_dispatches (model : WorkModel) (database : Database) (readings : Nat → Reading)
    (chunkRows : Nat) (positive : 1 ≤ chunkRows)
    (own : ∀ read, ∀ row ∈ (readings read).written, OwnRow model row)
    (finite : WritesText model → ∃ bound, ∀ read, ∀ row ∈ (readings read).written, row.id ≤ bound) :
    ∃ fuel final, workLoop model database readings chunkRows fuel 0 .start = some final ∧
      final.tasks.Nodup ∧
      (∀ unit, (∀ read, Matches model database (readings read) unit) →
        (model.entity = .items → KeyNeverFalls model database readings unit) →
          final.tasks.count unit = 1 ∨ ∃ read, ∃ row ∈ model.workRows database (readings read),
            row.partitionKey = unit ∧ (readings read).available row.itemId = false) ∧
      (¬WritesText model → ∀ unit ∈ final.tasks,
        ∃ candidate ∈ model.candidates database.files database.itemData,
          model.partitionKey candidate = unit) := by
  obtain ⟨bound, bounded⟩ := @cursor_keys_bounded model database readings own finite
  obtain ⟨final, ended⟩ := @loop_ends model database readings chunkRows bound positive bounded _ 0 .start
    (Nat.lt_succ_self _)
  have booked := loop_booked ended booked_start
  refine ⟨_, final, ended, booked.once, fun unit throughout stays => ?_, fun readsOther unit member => ?_⟩
  · have neverFalls : KeyNeverFalls model database readings unit := by
      by_cases isItems : model.entity = .items
      · exact stays isItems
      · exact key_never_falls isItems unit
    have ahead : Ahead model database readings unit 0 .start := by
      refine Or.inr fun row _ _ => ?_
      simp only [LoopState.start, rowKey]
      omega
    have dispatched := loop_dispatches ended throughout neverFalls ahead
    exact (booked.served unit dispatched).imp_left (List.count_eq_one_of_mem booked.once)
  · obtain ⟨read, isMatch⟩ := booked.matched unit (booked.noted unit member)
    exact matches_initial readsOther (own read) isMatch

def emptyCandidate : Candidate := ⟨⟨0, 0⟩, none⟩

/-- A query that shows the first or the last row of each partition. -/
def showing (last : Bool) (written : List ItemData) : Reading where
  written := written
  accepts _ := true
  pick group := if last then group.getLastD emptyCandidate else group.headD emptyCandidate
  chooses group nonempty := by
    split
    · rw [List.getLastD_eq_getLast?, List.getLast?_eq_some_getLast nonempty]
      exact List.getLast_mem nonempty
    · rw [List.headD_eq_head?_getD, List.head?_eq_some_head nonempty]
      exact List.head_mem nonempty
  available _ := true

/-- An item with one file between the two files of another. -/
def twoItems : Database := ⟨[⟨2, 20⟩, ⟨3, 10⟩, ⟨5, 20⟩], [], by decide⟩

def tagger : WorkModel := ⟨"wd", .items, "tags", false⟩

def steady : Nat → Reading := fun _ => showing false []

theorem two_items_dispatched :
    ∃ fuel final, workLoop tagger twoItems steady 1 fuel 0 .start = some final ∧ final.tasks.count 20 = 1 := by
  have rows : ∀ read, tagger.workRows twoItems (steady read) = [⟨3, 10, 10⟩, ⟨2, 20, 20⟩] := by
    intro read
    change tagger.workRows twoItems (showing false []) = _
    decide +kernel
  obtain ⟨fuel, final, ended, -, served, -⟩ := work_loop_dispatches tagger twoItems steady 1 (by decide)
    (nofun) (fun writes => absurd writes (by decide))
  refine ⟨fuel, final, ended, (served 20 ?_ ?_).resolve_right ?_⟩
  · intro read
    exact ⟨⟨⟨2, 20⟩, none⟩, by change _ ∈ tagger.matching twoItems (showing false []); decide, rfl⟩
  · intro _ read before isBefore after isAfter first second
    rw [rows] at isBefore isAfter
    simp only [List.mem_cons, List.not_mem_nil, or_false] at isBefore isAfter
    rcases isBefore with rfl | rfl <;> rcases isAfter with rfl | rfl <;> simp at first second ⊢
  · rintro ⟨read, row, -, -, gone⟩
    cases gone

/-- A model that rewrites texts, and the text it writes for the one there is. -/
def rewriter : WorkModel := ⟨"rewrite", .text, "text", true⟩

def oneText : Database := ⟨[⟨1, 1⟩], [⟨1, 1, "ocr", "text", none, true⟩], by decide⟩

def rewritten : ItemData := ⟨2, 1, "rewrite", "text", none, true⟩

/-- The item whose row falls back behind the cursor is not dispatched, though it matches at every
query; and a job that reads and writes texts is given a text of its own. -/
theorem fallen_row_is_skipped :
    (∃ final, workLoop tagger twoItems (fun read => showing (read = 0) []) 1 3 0 .start = some final ∧
      (∀ read : Nat, Matches tagger twoItems (showing (read = 0) []) 20) ∧ 20 ∉ final.tasks) ∧
    ∃ final, workLoop rewriter oneText (fun read => showing false (if read = 0 then [] else [rewritten])) 1 4 0
        .start = some final ∧ OwnRow rewriter rewritten ∧ rewritten.id ∈ final.tasks := by
  have all : ∀ last, Matches tagger twoItems (showing last []) 20 := by
    intro last
    exact ⟨⟨⟨2, 20⟩, none⟩, by cases last <;> decide, rfl⟩
  exact ⟨⟨⟨3, [10], [10]⟩, by decide +kernel, fun read => all _, by decide⟩,
    ⟨⟨2, [2, 1], [1, 2]⟩, by decide +kernel, ⟨rfl, by decide⟩, by decide⟩⟩

end Panoptikon.Extraction
