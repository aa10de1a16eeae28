import Panoptikon.DirPoller.Runs

/-!
# Passes whose calls fail

Every call of a pass may fail: the stat of a directory, the opening of its
listing, an entry in the middle of it, the metadata of one entry. The pass is
run against arbitrary answers, and what it looked at is logged. A failed stat
and a failed listing degrade the pass; an entry that cannot be inspected is
passed over in silence, as if the directory did not have it.
-/

namespace Panoptikon.DirPoller

open Foundation

/-- What a metadata call finds. `modified` may fail by itself. -/
inductive Stat where
  | directory
  | file (modified : Option Int) (len : Int)
  | other

structure DirEntry (Name : Type) where
  name : Name
  /-- The answer of `file_type`. -/
  isSymlink : Option Bool
  /-- The metadata that `std::fs::metadata` finds behind the entry's links. -/
  target : Option Stat
  /-- The metadata of the entry itself. -/
  own : Option Stat

variable {Name Text : Type}

def DirEntry.metadata (entry : DirEntry Name) : Option Stat :=
  entry.isSymlink.bind fun isSymlink => if isSymlink then entry.target else entry.own

/-- An entry that cannot be inspected is passed over. -/
def DirEntry.found (entry : DirEntry Name) : Metadata :=
  match entry.metadata with
  | some .directory => .directory
  | some (.file (some modified) len) => .file modified len
  | some (.file none _) => .other
  | some .other => .other
  | none => .other

def DirEntry.shown (entry : DirEntry Name) : Name × Metadata := (entry.name, entry.found)

/-- The answers at one directory: its mtime, and its listing, whose entries may
fail one by one. -/
structure Answer (Name : Type) where
  stat : Option Int
  listing : Option (List (Option (DirEntry Name)))

/-- The first entry that fails fails the listing. -/
def Answer.entries (answer : Answer Name) : Option (List (DirEntry Name)) :=
  answer.listing.bind fun listing => listing.mapM id

/-- What a directory that was looked at came to. -/
inductive Outcome (Name : Type) where
  | failed
  | unchanged
  | listed (entries : List (DirEntry Name))

variable [DecidableEq Name]

def outcome (snapshot : PollerSnapshot Name Text) (dir : List Name) (answer : Answer Name) : Outcome Name :=
  match answer.stat with
  | none => .failed
  | some modified =>
      if (snapshot.lookup dir).bind DirSnapshot.dirModified = some modified then .unchanged
      else
        match answer.entries with
        | none => .failed
        | some entries => .listed entries

abbrev Log (Name : Type) := List (List Name × Outcome Name)

/-- A pass under way, with what it looked at so far. -/
structure Survey (Name Text : Type) where
  walk : PollWalk Name Text
  log : Log Name

variable [DecidableEq Text] (tests : FileTests Name Text) (filters : PollFilters Name) (passStart : Int)

def listed (dir : List Name) (entries : List (DirEntry Name)) : DirListing Name Text :=
  enumerateDir tests filters dir (entries.map DirEntry.shown)

/-- A turn of the loop: excluded and visited directories are left alone. -/
def Survey.look (survey : Survey Name Text) (dir : List Name) (rest : List (List Name))
    (answer : Answer Name) : Survey Name Text where
  walk := { survey.walk with stack := rest }.turn tests filters passStart dir answer.stat
    (answer.entries.map (List.map DirEntry.shown))
  log :=
    if isExcluded dir filters.excludedRoots || survey.walk.visited.contains dir then survey.log
    else survey.log ++ [(dir, outcome survey.walk.snapshot dir answer)]

/-- The stack holds a hash set's children, so any waiting directory may be next. -/
inductive Turn : Survey Name Text → Survey Name Text → Prop where
  | look {survey : Survey Name Text} (dir : List Name) (rest : List (List Name)) (answer : Answer Name)
      (taken : survey.walk.stack.Perm (dir :: rest)) :
      Turn survey (survey.look tests filters passStart dir rest answer)

/-- A whole pass from a snapshot, before the cleanup. -/
structure Surveyed (snapshot : PollerSnapshot Name Text) (survey : Survey Name Text) : Prop where
  turns : Relation.ReflTransGen (Turn tests filters passStart) ⟨PollWalk.start filters snapshot, []⟩ survey
  emptied : survey.walk.stack = []

/-- A call on the entry fails; `modified` is asked for files that are wanted. -/
def DirEntry.Fails (dir : List Name) (entry : DirEntry Name) : Prop :=
  entry.metadata = none ∨
    (∃ len, entry.metadata = some (.file none len)) ∧
      tests.isHiddenOrTemp entry.name = false ∧ filters.hasAllowedExtension entry.name = true ∧
      isExcluded (dir ++ [entry.name]) filters.excludedRoots = false

/-- Every entry of the enumeration was inspected. -/
def Complete (dir : List Name) (entries : List (DirEntry Name)) : Prop :=
  ∀ entry ∈ entries, ¬entry.Fails tests filters dir

def RecordedSubdir (snapshot : PollerSnapshot Name Text) (dir : List Name) (name : Name) : Prop :=
  ∃ snap, snapshot.lookup dir = some snap ∧ name ∈ snap.subdirs

/-- A directory is known to be gone when its parent was enumerated without it,
or is unchanged since it was recorded without it, or is itself known to be gone. -/
inductive KnownGone (snapshot : PollerSnapshot Name Text) (log : Log Name) : List Name → Prop where
  | enumerated {parent : List Name} {name : Name} {entries : List (DirEntry Name)}
      (here : (parent, .listed entries) ∈ log) (complete : Complete tests filters parent entries)
      (wanted : tests.isJunkDirName name = false)
      (absent : name ∉ (listed tests filters parent entries : DirListing Name Text).subdirs) :
      KnownGone snapshot log (parent ++ [name])
  | unchanged {parent : List Name} {name : Name} (here : (parent, .unchanged) ∈ log)
      (wanted : tests.isJunkDirName name = false) (absent : ¬RecordedSubdir snapshot parent name) :
      KnownGone snapshot log (parent ++ [name])
  | under {parent : List Name} {name : Name} (gone : KnownGone snapshot log parent) :
      KnownGone snapshot log (parent ++ [name])

/-- A failure is no removal. -/
structure NoFalseRemoval (snapshot : PollerSnapshot Name Text) (log : Log Name)
    (result : PollWalk Name Text) : Prop where
  removed : ∀ path ∈ result.removals, ∃ dir name, path = dir ++ [name] ∧
    ((∃ entries, (dir, .listed entries) ∈ log ∧ Complete tests filters dir entries ∧
      name ∉ (listed tests filters dir entries : DirListing Name Text).files) ∨
    ((∀ outcome, (dir, outcome) ∉ log) ∧ KnownGone tests filters snapshot log dir))
  entriesKept : ∀ dir entries, (dir, .listed entries) ∈ log →
    ∀ entry ∈ entries, entry.Fails tests filters dir →
      (Held snapshot dir entry.name → Held result.snapshot dir entry.name) ∧
      (RecordedSubdir snapshot dir entry.name → RecordedSubdir result.snapshot dir entry.name)
  directoriesKept : ∀ dir, (dir, .failed) ∈ log → result.snapshot.lookup dir = snapshot.lookup dir
  marked : ((∃ dir, (dir, .failed) ∈ log) ∨
      ∃ dir entries, (dir, .listed entries) ∈ log ∧ ¬Complete tests filters dir entries) →
    result.degraded = true

/-- No entry failed, or a failed stat or listing degraded the pass and the
directories with failed entries list every file they are recorded with and have
no recorded subdirectory among these entries. -/
def Spared (snapshot : PollerSnapshot Name Text) (log : Log Name) : Prop :=
  (∀ dir entries, (dir, .listed entries) ∈ log → Complete tests filters dir entries) ∨
    (∃ dir, (dir, .failed) ∈ log) ∧
      ∀ dir entries, (dir, .listed entries) ∈ log → ¬Complete tests filters dir entries →
        (∀ name, Held snapshot dir name →
          name ∈ (listed tests filters dir entries : DirListing Name Text).files) ∧
        ∀ entry ∈ entries, entry.Fails tests filters dir → RecordedSubdir snapshot dir entry.name →
          entry.name ∈ (listed tests filters dir entries : DirListing Name Text).subdirs

/-- Under a root, with no junk directory below it. -/
def UnderRoot (dir : List Name) : Prop :=
  ∃ root ∈ filters.roots, ∃ below, dir = root ++ below ∧ ∀ name ∈ below, tests.isJunkDirName name = false

/-- A directory the poller watches. -/
def Watched (dir : List Name) : Prop :=
  isExcluded dir filters.excludedRoots = false ∧ UnderRoot tests filters dir

/-- A snapshot of watched directories, which seeding and passes make. -/
structure Watches (snapshot : PollerSnapshot Name Text) : Prop where
  dirs : ∀ dir snap, snapshot.lookup dir = some snap → Watched tests filters dir
  subdirs : ∀ dir sub, RecordedSubdir snapshot dir sub → tests.isJunkDirName sub = false

variable {tests : FileTests Name Text} {filters : PollFilters Name} {passStart : Int}
  {snapshot : PollerSnapshot Name Text} {survey : Survey Name Text}

/-- The directory has been taken, still waits, or is excluded. -/
def Reached (filters : PollFilters Name) (walk : PollWalk Name Text) (dir : List Name) : Prop :=
  isExcluded dir filters.excludedRoots = true ∨ dir ∈ walk.visited ∨ dir ∈ walk.stack

/-- The subdirectories a logged directory sends the walk to. -/
def Leads (tests : FileTests Name Text) (filters : PollFilters Name) (snapshot : PollerSnapshot Name Text)
    (dir : List Name) (sub : Name) : Outcome Name → Prop
  | .failed => False
  | .unchanged => RecordedSubdir snapshot dir sub
  | .listed entries => sub ∈ (listed tests filters dir entries : DirListing Name Text).subdirs

structure Accounted (tests : FileTests Name Text) (filters : PollFilters Name)
    (snapshot : PollerSnapshot Name Text) (survey : Survey Name Text) : Prop where
  logged : ∀ dir outcome, (dir, outcome) ∈ survey.log → dir ∈ survey.walk.visited
  once : ∀ dir first second, (dir, first) ∈ survey.log → (dir, second) ∈ survey.log → first = second
  recorded : ∀ dir entries, (dir, .listed entries) ∈ survey.log →
    ∃ snap, survey.walk.snapshot.lookup dir = some snap ∧
      snap.files = (listed tests filters dir entries).files ∧
      snap.subdirs = (listed tests filters dir entries : DirListing Name Text).subdirs
  kept : ∀ dir, (∀ entries, (dir, .listed entries) ∉ survey.log) →
    survey.walk.snapshot.lookup dir = snapshot.lookup dir
  removals : ∀ path, path ∈ survey.walk.removals ↔ ∃ dir name entries, path = dir ++ [name] ∧
    (dir, .listed entries) ∈ survey.log ∧ Held snapshot dir name ∧
    name ∉ (listed tests filters dir entries : DirListing Name Text).files
  degraded : survey.walk.degraded = true ↔ ∃ dir, (dir, .failed) ∈ survey.log
  clean : survey.walk.degraded = false → ∀ dir ∈ survey.walk.visited, ∃ outcome, (dir, outcome) ∈ survey.log
  roots : ∀ root ∈ filters.roots, Reached filters survey.walk root
  children : ∀ dir outcome sub, (dir, outcome) ∈ survey.log → Leads tests filters snapshot dir sub outcome →
    Reached filters survey.walk (dir ++ [sub])

omit [DecidableEq Text] in
theorem accounted_start (snapshot : PollerSnapshot Name Text) :
    Accounted tests filters snapshot ⟨PollWalk.start filters snapshot, []⟩ where
  logged _ _ logged := absurd logged List.not_mem_nil
  once _ _ _ logged := absurd logged List.not_mem_nil
  recorded _ _ logged := absurd logged List.not_mem_nil
  kept _ _ := rfl
  removals path := by
    constructor
    · exact fun removed => absurd removed List.not_mem_nil
    · rintro ⟨dir, name, entries, -, logged, -⟩
      cases logged
  degraded := by
    constructor
    · exact fun degraded => absurd degraded Bool.false_ne_true
    · rintro ⟨dir, logged⟩
      cases logged
  clean _ dir visited := absurd visited List.not_mem_nil
  roots root isRoot := .inr (.inr isRoot)
  children _ _ _ logged := absurd logged List.not_mem_nil

variable {rest : List (List Name)}

omit [DecidableEq Text] in
/-- What was reached stays reached when a directory leaves the stack visited or
excluded. -/
theorem reached_after {walk after : PollWalk Name Text} {dir path : List Name}
    (taken : walk.stack.Perm (dir :: rest)) (done : isExcluded dir filters.excludedRoots = true ∨ dir ∈ after.visited)
    (visited : ∀ other ∈ walk.visited, other ∈ after.visited) (waits : ∀ other ∈ rest, other ∈ after.stack)
    (reached : Reached filters walk path) : Reached filters after path := by
  rcases reached with excluded | isVisited | waiting
  · exact .inl excluded
  · exact .inr (.inl (visited path isVisited))
  · rcases List.mem_cons.mp (taken.mem_iff.mp waiting) with rfl | later
    · rcases done with excluded | isVisited
      · exact .inl excluded
      · exact .inr (.inl isVisited)
    · exact .inr (.inr (waits path later))

variable {dir : List Name}

omit [DecidableEq Name] in
theorem mem_logged {log : Log Name} {other : List Name} {outcome result : Outcome Name} :
    (other, outcome) ∈ log ++ [(dir, result)] ↔ (other, outcome) ∈ log ∨ (other = dir ∧ outcome = result) := by
  rw [List.mem_append, List.mem_singleton, Prod.mk.injEq]

omit [DecidableEq Text] in
/-- A turn that logs a directory, whatever it makes of the snapshot and the removals. -/
theorem Accounted.extended (accounted : Accounted tests filters snapshot survey) {result : Outcome Name}
    {after : PollWalk Name Text}
    (taken : survey.walk.stack.Perm (dir :: rest)) (unvisited : dir ∉ survey.walk.visited)
    (visited : ∀ other, other = dir ∨ other ∈ survey.walk.visited → other ∈ after.visited)
    (waits : ∀ other ∈ rest, other ∈ after.stack)
    (degraded : after.degraded = true ↔ survey.walk.degraded = true ∨ result = .failed)
    (clean : after.degraded = false → ∀ other ∈ after.visited, other = dir ∨ other ∈ survey.walk.visited)
    (leads : ∀ sub, Leads tests filters snapshot dir sub result → dir ++ [sub] ∈ after.stack)
    (recorded : ∀ other entries, (other, .listed entries) ∈ survey.log ++ [(dir, result)] →
      ∃ snap, after.snapshot.lookup other = some snap ∧ snap.files = (listed tests filters other entries).files ∧
        snap.subdirs = (listed tests filters other entries : DirListing Name Text).subdirs)
    (kept : ∀ other, (∀ entries, (other, .listed entries) ∉ survey.log ++ [(dir, result)]) →
      after.snapshot.lookup other = snapshot.lookup other)
    (removals : ∀ path, path ∈ after.removals ↔ ∃ other name entries, path = other ++ [name] ∧
      (other, .listed entries) ∈ survey.log ++ [(dir, result)] ∧ Held snapshot other name ∧
      name ∉ (listed tests filters other entries : DirListing Name Text).files) :
    Accounted tests filters snapshot ⟨after, survey.log ++ [(dir, result)]⟩ := by
  have fresh (outcome : Outcome Name) : (dir, outcome) ∉ survey.log := by
    intro logged
    exact unvisited (accounted.logged dir outcome logged)
  have reached {path : List Name} : Reached filters survey.walk path → Reached filters after path :=
    reached_after taken (.inr (visited dir (.inl rfl))) (fun other isVisited => visited other (.inr isVisited)) waits
  refine ⟨?_, ?_, recorded, kept, removals, ?_, ?_, ?_, ?_⟩
  · intro other outcome logged
    rcases mem_logged.mp logged with before | ⟨rfl, -⟩
    · exact visited other (.inr (accounted.logged other outcome before))
    · exact visited other (.inl rfl)
  · intro other first second isFirst isSecond
    rcases mem_logged.mp isFirst with beforeFirst | ⟨rfl, rfl⟩
    · rcases mem_logged.mp isSecond with beforeSecond | ⟨rfl, -⟩
      · exact accounted.once other first second beforeFirst beforeSecond
      · exact absurd beforeFirst (fresh first)
    · rcases mem_logged.mp isSecond with beforeSecond | ⟨-, same⟩
      · exact absurd beforeSecond (fresh second)
      · exact same.symm
  · rw [degraded, accounted.degraded]
    constructor
    · rintro (⟨other, logged⟩ | rfl)
      · exact ⟨other, mem_logged.mpr (.inl logged)⟩
      · exact ⟨dir, mem_logged.mpr (.inr ⟨rfl, rfl⟩)⟩
    · rintro ⟨other, logged⟩
      rcases mem_logged.mp logged with before | ⟨-, same⟩
      · exact .inl ⟨other, before⟩
      · exact .inr same.symm
  · intro isClean other isVisited
    have wasClean : survey.walk.degraded = false := by
      rw [Bool.eq_false_iff]
      intro wasDegraded
      rw [degraded.mpr (.inl wasDegraded)] at isClean
      exact absurd isClean (by decide)
    rcases clean isClean other isVisited with rfl | before
    · exact ⟨result, mem_logged.mpr (.inr ⟨rfl, rfl⟩)⟩
    · obtain ⟨outcome, logged⟩ := accounted.clean wasClean other before
      exact ⟨outcome, mem_logged.mpr (.inl logged)⟩
  · intro root isRoot
    exact reached (accounted.roots root isRoot)
  · intro other outcome sub logged leadsThere
    rcases mem_logged.mp logged with before | ⟨rfl, rfl⟩
    · exact reached (accounted.children other outcome sub before leadsThere)
    · exact .inr (.inr (leads sub leadsThere))

omit [DecidableEq Text] in
/-- A turn that logs a directory without listing it leaves the snapshot and the
removals alone. -/
theorem Accounted.unlisted (accounted : Accounted tests filters snapshot survey) {result : Outcome Name}
    {after : PollWalk Name Text}
    (taken : survey.walk.stack.Perm (dir :: rest)) (unvisited : dir ∉ survey.walk.visited)
    (unlisted : ∀ entries, result ≠ .listed entries)
    (snapshotKept : after.snapshot = survey.walk.snapshot) (removalsKept : after.removals = survey.walk.removals)
    (visited : ∀ other, other = dir ∨ other ∈ survey.walk.visited → other ∈ after.visited)
    (waits : ∀ other ∈ rest, other ∈ after.stack)
    (degraded : after.degraded = true ↔ survey.walk.degraded = true ∨ result = .failed)
    (clean : after.degraded = false → ∀ other ∈ after.visited, other = dir ∨ other ∈ survey.walk.visited)
    (leads : ∀ sub, Leads tests filters snapshot dir sub result → dir ++ [sub] ∈ after.stack) :
    Accounted tests filters snapshot ⟨after, survey.log ++ [(dir, result)]⟩ := by
  have sameListed {other : List Name} {entries : List (DirEntry Name)} :
      (other, .listed entries) ∈ survey.log ++ [(dir, result)] ↔ (other, .listed entries) ∈ survey.log := by
    rw [mem_logged]
    apply or_iff_left
    rintro ⟨-, same⟩
    exact unlisted entries same.symm
  refine accounted.extended taken unvisited visited waits degraded clean leads ?_ ?_ ?_
  · intro other entries logged
    rw [snapshotKept]
    exact accounted.recorded other entries (sameListed.mp logged)
  · intro other never
    rw [snapshotKept]
    apply accounted.kept other
    intro entries logged
    exact never entries (sameListed.mpr logged)
  · intro path
    rw [removalsKept, accounted.removals path]
    simp only [sameListed]

theorem Accounted.enumerated (accounted : Accounted tests filters snapshot survey)
    (taken : survey.walk.stack.Perm (dir :: rest))
    (unvisited : dir ∉ survey.walk.visited) (modified : Int) (entries : List (DirEntry Name)) :
    Accounted tests filters snapshot
      ⟨({ survey.walk with stack := rest, visited := dir :: survey.walk.visited } : PollWalk Name Text).enumerated
          passStart dir modified (listed tests filters dir entries),
        survey.log ++ [(dir, .listed entries)]⟩ := by
  have fresh (outcome : Outcome Name) : (dir, outcome) ∉ survey.log := by
    intro logged
    exact unvisited (accounted.logged dir outcome logged)
  have asBefore : survey.walk.snapshot.lookup dir = snapshot.lookup dir :=
    accounted.kept dir fun entries => fresh (.listed entries)
  have isStored (snap : DirSnapshot Name Text) (other : List Name) : (survey.walk.snapshot.insert dir snap).lookup other =
      if other = dir then some snap else survey.walk.snapshot.lookup other := KeyedMap.lookup_insert_eq _ _ _ _
  refine accounted.extended taken unvisited (fun _ isVisited => List.mem_cons.mpr isVisited)
    (fun _ waiting => List.mem_append_right _ waiting) (or_iff_left (fun same => by cases same)).symm
    (fun _ _ isVisited => List.mem_cons.mp isVisited) ?_ ?_ ?_ ?_
  · intro sub leads
    apply List.mem_append_left
    rw [List.mem_reverse]
    exact List.mem_map_of_mem leads
  · intro other found logged
    change ∃ snap, (survey.walk.snapshot.insert dir _).lookup other = some snap ∧ _
    rw [isStored]
    rcases mem_logged.mp logged with before | ⟨rfl, same⟩
    · have elsewhere : other ≠ dir := by
        rintro rfl
        exact fresh _ before
      rw [if_neg elsewhere]
      exact accounted.recorded other found before
    · cases same
      rw [if_pos rfl]
      exact ⟨_, rfl, rfl, rfl⟩
  · intro other never
    change (survey.walk.snapshot.insert dir _).lookup other = _
    have elsewhere : other ≠ dir := by
      rintro rfl
      exact never entries (mem_logged.mpr (.inr ⟨rfl, rfl⟩))
    rw [isStored, if_neg elsewhere]
    apply accounted.kept other
    intro found logged
    exact never found (mem_logged.mpr (.inl logged))
  · intro path
    rw [mem_enumerated_removals]
    change path ∈ survey.walk.removals ∨ _ ↔ _
    rw [accounted.removals path]
    constructor
    · rintro (⟨other, name, found, rfl, logged, held, gone⟩ | ⟨name, rfl, held, gone⟩)
      · exact ⟨other, name, found, rfl, mem_logged.mpr (.inl logged), held, gone⟩
      · refine ⟨dir, name, entries, rfl, mem_logged.mpr (.inr ⟨rfl, rfl⟩), ?_, gone⟩
        rw [Held, ← asBefore]
        exact held
    · rintro ⟨other, name, found, rfl, logged, held, gone⟩
      rcases mem_logged.mp logged with earlier | ⟨rfl, same⟩
      · exact .inl ⟨other, name, found, rfl, earlier, held, gone⟩
      · cases same
        refine .inr ⟨name, rfl, ?_, gone⟩
        rw [Held, ← asBefore] at held
        exact held

/-- The walk when `dir` has been taken from the stack and counted as visited. -/
def PollWalk.opened (walk : PollWalk Name Text) (dir : List Name) (rest : List (List Name)) : PollWalk Name Text :=
  { walk with stack := rest, visited := dir :: walk.visited }

omit [DecidableEq Text] in
theorem passed_over_iff {walk : PollWalk Name Text} :
    (isExcluded dir filters.excludedRoots || walk.visited.contains dir) = true ↔
      isExcluded dir filters.excludedRoots = true ∨ dir ∈ walk.visited := by
  rw [Bool.or_eq_true, List.contains_iff_mem]

theorem look_cases (survey : Survey Name Text) (dir : List Name) (rest : List (List Name)) (answer : Answer Name) :
    ((isExcluded dir filters.excludedRoots = true ∨ dir ∈ survey.walk.visited) ∧
      survey.look tests filters passStart dir rest answer = ⟨{ survey.walk with stack := rest }, survey.log⟩) ∨
    (isExcluded dir filters.excludedRoots = false ∧ dir ∉ survey.walk.visited ∧
      ((answer.stat = none ∨ answer.entries = none) ∧ survey.look tests filters passStart dir rest answer =
          ⟨(survey.walk.opened dir rest).fail dir, survey.log ++ [(dir, .failed)]⟩ ∨
        (∃ snap, survey.walk.snapshot.lookup dir = some snap ∧
          survey.look tests filters passStart dir rest answer =
            ⟨(survey.walk.opened dir rest).push dir snap.subdirs, survey.log ++ [(dir, .unchanged)]⟩) ∨
        ∃ modified entries, answer.stat = some modified ∧ answer.entries = some entries ∧
          survey.look tests filters passStart dir rest answer =
            ⟨(survey.walk.opened dir rest).enumerated passStart dir modified (listed tests filters dir entries),
              survey.log ++ [(dir, .listed entries)]⟩)) := by
  by_cases skips : isExcluded dir filters.excludedRoots = true ∨ dir ∈ survey.walk.visited
  · apply Or.inl
    rw [Survey.look, if_pos (passed_over_iff.mpr skips), turn_over skips]
    exact ⟨skips, rfl⟩
  · apply Or.inr
    have included : isExcluded dir filters.excludedRoots = false := by
      rw [Bool.eq_false_iff]
      exact (not_or.mp skips).1
    refine ⟨included, (not_or.mp skips).2, ?_⟩
    have looked : survey.look tests filters passStart dir rest answer =
        ⟨(survey.walk.opened dir rest).visit tests filters passStart dir answer.stat
            (answer.entries.map (List.map DirEntry.shown)),
          survey.log ++ [(dir, outcome (survey.walk.opened dir rest).snapshot dir answer)]⟩ := by
      rw [Survey.look, turn_visits included (not_or.mp skips).2, if_neg (mt passed_over_iff.mp skips)]
      rfl
    have stored : (survey.walk.opened dir rest).snapshot.lookup dir = survey.walk.snapshot.lookup dir := rfl
    rw [looked, ← stored]
    generalize survey.walk.opened dir rest = opened
    rw [outcome]
    cases answer.stat with
    | none => exact .inl ⟨.inl rfl, rfl⟩
    | some modified =>
      dsimp only
      by_cases recorded : (opened.snapshot.lookup dir).bind DirSnapshot.dirModified = some modified
      · obtain ⟨snap, isStored, -, visits⟩ := visit_recorded recorded
        rw [visits, if_pos recorded]
        exact .inr (.inl ⟨snap, isStored, rfl⟩)
      · rw [if_neg recorded]
        cases answer.entries with
        | none =>
          rw [Option.map_none, visit_unlisted recorded]
          exact .inl ⟨.inr rfl, rfl⟩
        | some entries =>
          rw [Option.map_some, visit_listed recorded]
          exact .inr (.inr ⟨modified, entries, rfl, rfl, rfl⟩)

theorem Accounted.look (accounted : Accounted tests filters snapshot survey) (answer : Answer Name)
    (taken : survey.walk.stack.Perm (dir :: rest)) :
    Accounted tests filters snapshot (survey.look tests filters passStart dir rest answer) := by
  rcases look_cases survey dir rest answer with ⟨skips, looked⟩ | ⟨-, unvisited, looked⟩
  · -- The directory leaves the stack and nothing else happens.
    have reached {path : List Name} : Reached filters survey.walk path →
        Reached filters { survey.walk with stack := rest } path :=
      reached_after taken skips (fun _ isVisited => isVisited) (fun _ waiting => waiting)
    rw [looked]
    exact {
      logged := accounted.logged
      once := accounted.once
      recorded := accounted.recorded
      kept := accounted.kept
      removals := accounted.removals
      degraded := accounted.degraded
      clean := accounted.clean
      roots := fun root isRoot => reached (accounted.roots root isRoot)
      children := fun other outcome sub logged leads => reached (accounted.children other outcome sub logged leads) }
  · rcases looked with ⟨-, looked⟩ | ⟨snap, stored, looked⟩ | ⟨modified, entries, -, -, looked⟩
    · rw [looked]
      refine accounted.unlisted taken unvisited ?_ rfl rfl ?_ ?_ ?_ ?_ ?_
      · exact fun entries same => by cases same
      · rintro other (rfl | isVisited)
        · exact visited_mark_subtree _ _ _ _ List.mem_cons_self
        · exact visited_mark_subtree _ _ _ _ (List.mem_cons_of_mem _ isVisited)
      · exact fun other waiting => waiting
      · exact iff_of_true rfl (.inr rfl)
      · exact fun isClean => by cases isClean
      · exact fun sub leads => leads.elim
    · have asBefore : survey.walk.snapshot.lookup dir = snapshot.lookup dir := by
        apply accounted.kept dir
        intro entries logged
        exact unvisited (accounted.logged dir _ logged)
      rw [looked]
      refine accounted.unlisted taken unvisited ?_ rfl rfl ?_ ?_ ?_ ?_ ?_
      · exact fun entries same => by cases same
      · exact fun other isVisited => List.mem_cons.mpr isVisited
      · exact fun other waiting => List.mem_append_right _ waiting
      · exact (or_iff_left (fun same => by cases same)).symm
      · exact fun _ other isVisited => List.mem_cons.mp isVisited
      · rintro sub ⟨known, isKnown, member⟩
        rw [← asBefore, stored, Option.some.injEq] at isKnown
        apply List.mem_append_left
        rw [List.mem_reverse, isKnown]
        exact List.mem_map_of_mem member
    · rw [looked]
      exact accounted.enumerated taken unvisited modified entries

theorem turns_accounted
    (turns : Relation.ReflTransGen (Turn tests filters passStart) ⟨PollWalk.start filters snapshot, []⟩ survey) :
    Accounted tests filters snapshot survey := by
  induction turns with
  | refl => exact accounted_start snapshot
  | tail _ turn ih =>
    cases turn with
    | look dir rest answer taken => exact ih.look answer taken

variable {path : List Name}

section Cleanup

variable {walk : PollWalk Name Text}

omit [DecidableEq Text] in
theorem degraded_retired (dirs : List (List Name)) (walk : PollWalk Name Text) :
    (dirs.foldl PollWalk.retire walk).degraded = walk.degraded := by
  induction dirs generalizing walk with
  | nil => rfl
  | cons dir dirs ih =>
    rw [List.foldl_cons, ih, PollWalk.retire]
    split <;> rfl

omit [DecidableEq Text] in
theorem degraded_finish (walk : PollWalk Name Text) : walk.finish.degraded = walk.degraded := by
  rw [PollWalk.finish]
  split
  · rfl
  · exact degraded_retired _ walk

omit [DecidableEq Text] in
theorem finish_of_degraded (degraded : walk.degraded = true) : walk.finish = walk := by
  rw [PollWalk.finish, if_pos degraded]

omit [DecidableEq Text] in
theorem mem_retired_removals {dirs : List (List Name)}
    (removed : path ∈ (dirs.foldl PollWalk.retire walk).removals) :
    path ∈ walk.removals ∨ ∃ dir ∈ dirs, ∃ name, path = dir ++ [name] ∧ Held walk.snapshot dir name := by
  induction dirs generalizing walk with
  | nil => exact .inl removed
  | cons first dirs ih =>
    rcases ih removed with before | ⟨dir, member, name, same, snap, stored, held⟩
    · rcases (mem_retire_removals walk first path).mp before with earlier | ⟨name, same, held⟩
      · exact .inl earlier
      · exact .inr ⟨first, List.mem_cons_self, name, same, held⟩
    · rw [lookup_retire] at stored
      split at stored
      · cases stored
      · exact .inr ⟨dir, List.mem_cons_of_mem _ member, name, same, snap, stored, held⟩

omit [DecidableEq Text] in
/-- The cleanup of a clean pass removes the files of directories that were not
visited. -/
theorem mem_finish_removals (removed : path ∈ walk.finish.removals) :
    path ∈ walk.removals ∨ (walk.degraded = false ∧ ∃ dir name, path = dir ++ [name] ∧
      dir ∉ walk.visited ∧ Held walk.snapshot dir name) := by
  rw [PollWalk.finish] at removed
  split at removed
  · exact .inl removed
  · rename_i clean
    rcases mem_retired_removals removed with before | ⟨dir, stale, name, same, held⟩
    · exact .inl before
    · refine .inr ⟨by simpa using clean, dir, name, same, ?_, held⟩
      exact of_decide_eq_true (List.mem_filter.mp stale).2

omit [DecidableEq Text] in
theorem removals_finish (removed : path ∈ walk.removals) : path ∈ walk.finish.removals := by
  have retired (dirs : List (List Name)) (walk : PollWalk Name Text) (before : path ∈ walk.removals) :
      path ∈ (dirs.foldl PollWalk.retire walk).removals := by
    induction dirs generalizing walk with
    | nil => exact before
    | cons dir dirs ih => exact ih _ ((mem_retire_removals walk dir path).mpr (.inl before))
  rw [PollWalk.finish]
  split
  · exact removed
  · exact retired _ walk removed

end Cleanup

omit [DecidableEq Text] in
theorem excluded_below {excluded : List (List Name)} (more : List Name)
    (isAbove : isExcluded path excluded = true) : isExcluded (path ++ more) excluded = true := by
  rw [isExcluded, List.any_eq_true] at isAbove ⊢
  obtain ⟨root, member, starts⟩ := isAbove
  refine ⟨root, member, ?_⟩
  rw [List.isPrefixOf_iff_prefix] at starts ⊢
  exact starts.trans (List.prefix_append path more)

omit [DecidableEq Text] in
/-- In a clean pass a directory it watches was visited, or some directory on the
way to it was looked at and did not have the next one. -/
theorem visited_or_gone (accounted : Accounted tests filters snapshot survey) (emptied : survey.walk.stack = [])
    (clean : survey.walk.degraded = false)
    (complete : ∀ dir entries, (dir, .listed entries) ∈ survey.log → Complete tests filters dir entries)
    (watched : Watched tests filters dir) :
    dir ∈ survey.walk.visited ∨ KnownGone tests filters snapshot survey.log dir := by
  obtain ⟨included, root, isRoot, below, rfl, wanted⟩ := watched
  have visits {path : List Name} (notExcluded : isExcluded path filters.excludedRoots = false)
      (reached : Reached filters survey.walk path) : path ∈ survey.walk.visited := by
    rcases reached with excluded | visited | waiting
    · rw [notExcluded] at excluded
      exact absurd excluded Bool.false_ne_true
    · exact visited
    · rw [emptied] at waiting
      cases waiting
  induction below using List.reverseRecOn with
  | nil =>
    rw [List.append_nil] at included ⊢
    exact .inl (visits included (accounted.roots root isRoot))
  | append_singleton below name ih =>
    rw [← List.append_assoc] at included ⊢
    have parentIncluded : isExcluded (root ++ below) filters.excludedRoots = false := by
      rw [Bool.eq_false_iff]
      intro excluded
      rw [excluded_below [name] excluded] at included
      exact absurd included (by decide)
    have isWanted : tests.isJunkDirName name = false := wanted name (by simp)
    rcases ih (fun other member => wanted other (List.mem_append_left _ member)) parentIncluded with visited | gone
    · obtain ⟨result, logged⟩ := accounted.clean clean _ visited
      by_cases leads : Leads tests filters snapshot (root ++ below) name result
      · exact .inl (visits included (accounted.children _ result name logged leads))
      · apply Or.inr
        cases result with
        | failed =>
          have degraded := accounted.degraded.mpr ⟨_, logged⟩
          rw [clean] at degraded
          exact absurd degraded Bool.false_ne_true
        | unchanged => exact .unchanged logged isWanted leads
        | listed entries => exact .enumerated logged (complete _ entries logged) isWanted leads
    · exact .inr (.under gone)

omit [DecidableEq Text] in
theorem listed_wanted {entries : List (DirEntry Name)} {sub : Name}
    (member : sub ∈ (listed tests filters dir entries : DirListing Name Text).subdirs) :
    tests.isJunkDirName sub = false := by
  rcases (mem_subdirs_fold dir _ _ sub).mp member with none_ | ⟨-, wanted⟩
  · cases none_
  · exact wanted

omit [DecidableEq Name] [DecidableEq Text] in
theorem UnderRoot.child {sub : Name} (under : UnderRoot tests filters dir)
    (wanted : tests.isJunkDirName sub = false) : UnderRoot tests filters (dir ++ [sub]) := by
  obtain ⟨root, isRoot, below, rfl, clean⟩ := under
  refine ⟨root, isRoot, below ++ [sub], List.append_assoc _ _ _, ?_⟩
  intro name member
  rcases List.mem_append.mp member with before | last
  · exact clean name before
  · rw [List.mem_singleton.mp last]
    exact wanted

/-- What waits is under a root, and what was looked at is watched. -/
structure OnWatch (tests : FileTests Name Text) (filters : PollFilters Name) (survey : Survey Name Text) : Prop where
  stack : ∀ dir ∈ survey.walk.stack, UnderRoot tests filters dir
  log : ∀ dir outcome, (dir, outcome) ∈ survey.log → Watched tests filters dir
  subdirs : ∀ dir sub, RecordedSubdir survey.walk.snapshot dir sub → tests.isJunkDirName sub = false

theorem OnWatch.look (onWatch : OnWatch tests filters survey)
    (answer : Answer Name) (taken : survey.walk.stack.Perm (dir :: rest)) :
    OnWatch tests filters (survey.look tests filters passStart dir rest answer) := by
  have under := onWatch.stack dir (taken.mem_iff.mpr List.mem_cons_self)
  have waits : ∀ other ∈ rest, UnderRoot tests filters other := by
    intro other waiting
    exact onWatch.stack other (taken.mem_iff.mpr (List.mem_cons_of_mem _ waiting))
  have pushed {subs : List Name} (wanted : ∀ sub ∈ subs, tests.isJunkDirName sub = false) :
      ∀ other ∈ (subs.map fun sub => dir ++ [sub]).reverse ++ rest, UnderRoot tests filters other := by
    intro other waiting
    rcases List.mem_append.mp waiting with child | earlier
    · rw [List.mem_reverse, List.mem_map] at child
      obtain ⟨sub, member, rfl⟩ := child
      exact under.child (wanted sub member)
    · exact waits other earlier
  rcases look_cases survey dir rest answer with ⟨-, looked⟩ | ⟨included, -, looked⟩
  · rw [looked]
    exact ⟨waits, onWatch.log, onWatch.subdirs⟩
  · have log (result : Outcome Name) : ∀ other outcome, (other, outcome) ∈ survey.log ++ [(dir, result)] →
        Watched tests filters other := by
      intro other outcome logged
      rcases List.mem_append.mp logged with before | last
      · exact onWatch.log other outcome before
      · cases List.mem_singleton.mp last
        exact ⟨included, under⟩
    rcases looked with ⟨-, looked⟩ | ⟨snap, stored, looked⟩ | ⟨modified, entries, -, -, looked⟩
    · rw [looked]
      exact ⟨waits, log _, onWatch.subdirs⟩
    · rw [looked]
      exact ⟨pushed fun sub member => onWatch.subdirs dir sub ⟨snap, stored, member⟩, log _, onWatch.subdirs⟩
    · rw [looked]
      refine ⟨pushed fun sub member => listed_wanted member, log _, ?_⟩
      rintro other sub ⟨snap, stored, member⟩
      change (survey.walk.snapshot.insert dir _).lookup other = some snap at stored
      rw [KeyedMap.lookup_insert_eq] at stored
      split at stored
      · cases stored
        exact listed_wanted member
      · exact onWatch.subdirs other sub ⟨snap, stored, member⟩

theorem turns_on_watch (wanted : ∀ dir sub, RecordedSubdir snapshot dir sub → tests.isJunkDirName sub = false)
    (turns : Relation.ReflTransGen (Turn tests filters passStart) ⟨PollWalk.start filters snapshot, []⟩ survey) :
    OnWatch tests filters survey := by
  induction turns with
  | refl =>
    refine ⟨?_, nofun, wanted⟩
    intro root isRoot
    exact ⟨root, isRoot, [], (List.append_nil root).symm, nofun⟩
  | tail _ turn ih =>
    cases turn with
    | look dir rest answer taken => exact ih.look answer taken

theorem surveyed_watches (watches : Watches tests filters snapshot)
    (surveyed : Surveyed tests filters passStart snapshot survey) :
    Watches tests filters survey.walk.finish.snapshot := by
  have accounted := turns_accounted surveyed.turns
  have onWatch := turns_on_watch watches.subdirs surveyed.turns
  have stays {dir : List Name} {snap : DirSnapshot Name Text}
      (stored : survey.walk.finish.snapshot.lookup dir = some snap) :
      survey.walk.snapshot.lookup dir = some snap := (lookup_finish survey.walk stored).1
  constructor
  · intro dir snap stored
    by_cases isListed : ∃ entries, (dir, .listed entries) ∈ survey.log
    · obtain ⟨entries, logged⟩ := isListed
      exact onWatch.log dir _ logged
    · rw [not_exists] at isListed
      have before := stays stored
      rw [accounted.kept dir isListed] at before
      exact watches.dirs dir snap before
  · rintro dir sub ⟨snap, stored, member⟩
    exact onWatch.subdirs dir sub ⟨snap, stays stored, member⟩

omit [DecidableEq Text] in
/-- A seeded file lies in a watched directory: its longest root is the one that
counts. -/
theorem seeded_watched (seeded : isSeeded tests filters path = true)
    (noRoot : path ∉ filters.roots) : Watched tests filters path.dropLast := by
  rw [isSeeded, Bool.and_eq_true, Bool.and_eq_true, Bool.not_eq_true', Bool.or_eq_false_iff,
    Bool.or_eq_false_iff] at seeded
  obtain ⟨⟨isUnder, notExcluded, -, noJunk⟩, -⟩ := seeded
  constructor
  · rw [Bool.eq_false_iff]
    intro excluded
    have whole : isExcluded path filters.excludedRoots = true := by
      cases path using List.reverseRecOn with
      | nil => exact excluded
      | append_singleton before name =>
        rw [List.dropLast_concat] at excluded
        exact excluded_below [name] excluded
    rw [whole] at notExcluded
    exact absurd notExcluded (by decide)
  · unfold isUnderJunkDir at noJunk
    cases deepest : ((filters.roots.filter fun root => root.isPrefixOf path).map List.length).max? with
    | none =>
      rw [List.max?_eq_none_iff, List.map_eq_nil_iff, List.filter_eq_nil_iff] at deepest
      rw [List.any_eq_true] at isUnder
      obtain ⟨root, isRoot, starts⟩ := isUnder
      exact absurd starts (deepest root isRoot)
    | some depth =>
      rw [deepest] at noJunk
      dsimp only at noJunk
      have member := List.max?_mem deepest
      rw [List.mem_map] at member
      obtain ⟨root, isFiltered, rfl⟩ := member
      obtain ⟨isRoot, starts⟩ := List.mem_filter.mp isFiltered
      obtain ⟨below, rfl⟩ := List.isPrefixOf_iff_prefix.mp starts
      rw [List.drop_left] at noJunk
      have proper : below ≠ [] := by
        rintro rfl
        rw [List.append_nil] at noRoot
        exact noRoot isRoot
      refine ⟨root, isRoot, below.dropLast, List.dropLast_append_of_ne_nil proper, ?_⟩
      intro name member
      rw [Bool.eq_false_iff]
      intro junk
      rw [List.any_eq_false] at noJunk
      exact noJunk name member junk

omit [DecidableEq Text] in
theorem seed_watches (rows : List (List Name × Text)) (noRoot : ∀ row ∈ rows, row.1 ∉ filters.roots) :
    Watches tests filters (seedSnapshot tests filters rows) := by
  have watches : Watches tests filters (∅ : PollerSnapshot Name Text) := by
    constructor
    · intro dir snap stored
      cases stored
    · rintro dir sub ⟨snap, stored, -⟩
      cases stored
  unfold seedSnapshot
  generalize (∅ : PollerSnapshot Name Text) = snapshot at watches ⊢
  induction rows generalizing snapshot with
  | nil => exact watches
  | cons row rows ih =>
    rw [List.foldl_cons]
    apply ih (fun other member => noRoot other (List.mem_cons_of_mem _ member))
    by_cases seeded : isSeeded tests filters row.1 = true
    · rw [if_pos seeded, seedRow]
      have watched := seeded_watched seeded (noRoot row List.mem_cons_self)
      cases row.1.getLast? with
      | none => exact watches
      | some name =>
        dsimp only
        constructor
        · intro dir snap stored
          rw [KeyedMap.lookup_insert_eq] at stored
          split at stored
          · rename_i same
            rw [same]
            exact watched
          · exact watches.dirs dir snap stored
        · rintro dir sub ⟨snap, stored, member⟩
          rw [KeyedMap.lookup_insert_eq] at stored
          split at stored
          · cases stored
            cases before : snapshot.lookup row.1.dropLast with
            | none =>
              rw [before] at member
              cases member
            | some old =>
              rw [before] at member
              exact watches.subdirs _ sub ⟨old, before, member⟩
          · exact watches.subdirs dir sub ⟨snap, stored, member⟩
    · rw [if_neg seeded]
      exact watches

/-- A finished pass between two snapshots. -/
def Polls (tests : FileTests Name Text) (filters : PollFilters Name) (before after : PollerSnapshot Name Text) :
    Prop :=
  ∃ passStart survey, Surveyed tests filters passStart before survey ∧ after = survey.walk.finish.snapshot

/-- Whatever the disk answers, no pass looks at a directory that is not watched, and no
snapshot records one. -/
theorem polls_watch (rows : List (List Name × Text)) (noRoot : ∀ row ∈ rows, row.1 ∉ filters.roots)
    (polls : Relation.ReflTransGen (Polls tests filters) (seedSnapshot tests filters rows) snapshot) :
    Watches tests filters snapshot ∧ ∀ passStart survey,
      Relation.ReflTransGen (Turn tests filters passStart) ⟨PollWalk.start filters snapshot, []⟩ survey →
        ∀ dir outcome, (dir, outcome) ∈ survey.log → Watched tests filters dir := by
  have watches : Watches tests filters snapshot := by
    induction polls with
    | refl => exact seed_watches rows noRoot
    | tail _ poll ih =>
      obtain ⟨passStart, survey, surveyed, rfl⟩ := poll
      exact surveyed_watches ih surveyed
  exact ⟨watches, fun passStart survey turns => (turns_on_watch watches.subdirs turns).log⟩

/-- A pass over a snapshot of watched directories turns no failure into a
removal exactly when it is spared the failures of single entries. -/
theorem no_false_removal_iff (watches : Watches tests filters snapshot)
    (surveyed : Surveyed tests filters passStart snapshot survey) :
    NoFalseRemoval tests filters snapshot survey.log survey.walk.finish ↔
      Spared tests filters snapshot survey.log := by
  have accounted := turns_accounted surveyed.turns
  have emptied := surveyed.emptied
  constructor
  · intro promise
    by_cases complete : ∀ dir entries, (dir, .listed entries) ∈ survey.log → Complete tests filters dir entries
    · exact .inl complete
    · apply Or.inr
      push Not at complete
      obtain ⟨failedIn, failedEntries, failedLogged, incomplete⟩ := complete
      have degraded : survey.walk.degraded = true := by
        rw [← degraded_finish]
        exact promise.marked (.inr ⟨failedIn, failedEntries, failedLogged, incomplete⟩)
      refine ⟨accounted.degraded.mp degraded, ?_⟩
      intro dir entries logged incomplete
      constructor
      · intro name held
        by_contra gone
        have removal : dir ++ [name] ∈ survey.walk.removals :=
          (accounted.removals _).mpr ⟨dir, name, entries, rfl, logged, held, gone⟩
        obtain ⟨parent, child, same, reason⟩ := promise.removed _ (removals_finish removal)
        rw [List.append_singleton_inj] at same
        obtain ⟨rfl, rfl⟩ := same
        rcases reason with ⟨found, foundLogged, complete, -⟩ | ⟨never, -⟩
        · have same := accounted.once dir _ _ logged foundLogged
          cases same
          exact incomplete complete
        · exact never _ logged
      · intro entry member fails isRecorded
        obtain ⟨snap, stored, isSubdir⟩ := (promise.entriesKept dir entries logged entry member fails).2 isRecorded
        rw [finish_of_degraded degraded] at stored
        obtain ⟨own, isOwn, -, subdirs⟩ := accounted.recorded dir entries logged
        rw [isOwn, Option.some.injEq] at stored
        rw [← subdirs, stored]
        exact isSubdir
  · intro spared
    have incompleteDegrades {dir : List Name} {entries : List (DirEntry Name)}
        (logged : (dir, .listed entries) ∈ survey.log) (incomplete : ¬Complete tests filters dir entries) :
        survey.walk.degraded = true := by
      rcases spared with complete | ⟨failed, -⟩
      · exact absurd (complete dir entries logged) incomplete
      · exact accounted.degraded.mpr failed
    refine ⟨?_, ?_, ?_, ?_⟩
    · intro path removed
      rcases mem_finish_removals removed with listedAway | ⟨clean, dir, name, same, unvisited, held⟩
      · obtain ⟨dir, name, entries, same, logged, held, gone⟩ := (accounted.removals path).mp listedAway
        refine ⟨dir, name, same, .inl ⟨entries, logged, ?_, gone⟩⟩
        by_contra incomplete
        rcases spared with complete | ⟨-, keeps⟩
        · exact incomplete (complete dir entries logged)
        · exact gone ((keeps dir entries logged incomplete).1 name held)
      · have never (result : Outcome Name) : (dir, result) ∉ survey.log := by
          intro logged
          exact unvisited (accounted.logged dir result logged)
        have complete : ∀ dir entries, (dir, .listed entries) ∈ survey.log → Complete tests filters dir entries := by
          rcases spared with complete | ⟨failed, -⟩
          · exact complete
          · rw [accounted.degraded.mpr failed] at clean
            exact absurd clean (by decide)
        obtain ⟨snap, stored, -⟩ := held
        rw [accounted.kept dir fun entries => never _] at stored
        refine ⟨dir, name, same, .inr ⟨never, ?_⟩⟩
        exact (visited_or_gone accounted emptied clean complete (watches.dirs dir snap stored)).resolve_left unvisited
    · intro dir entries logged entry member fails
      have incomplete : ¬Complete tests filters dir entries := fun complete => complete entry member fails
      rw [finish_of_degraded (incompleteDegrades logged incomplete)]
      obtain ⟨own, isOwn, files, subdirs⟩ := accounted.recorded dir entries logged
      rcases spared with complete | ⟨-, keeps⟩
      · exact absurd (complete dir entries logged) incomplete
      · obtain ⟨filesKept, subdirsKept⟩ := keeps dir entries logged incomplete
        constructor
        · intro held
          exact ⟨own, isOwn, files ▸ filesKept entry.name held⟩
        · intro isRecorded
          exact ⟨own, isOwn, subdirs ▸ subdirsKept entry member fails isRecorded⟩
    · intro dir logged
      rw [finish_of_degraded (accounted.degraded.mpr ⟨dir, logged⟩)]
      apply accounted.kept dir
      intro entries isListed
      have same := accounted.once dir _ _ logged isListed
      cases same
    · rw [degraded_finish]
      rintro (failed | ⟨dir, entries, logged, incomplete⟩)
      · exact accounted.degraded.mpr failed
      · exact incompleteDegrades logged incomplete

/-- A directory with one recorded file. -/
def filedSnapshot : PollerSnapshot Nat Int :=
  (∅ : PollerSnapshot Nat Int).insert [0] ⟨none, (∅ : KeyedMap Nat (FileMeta Int)).insert 1 ⟨5, none⟩, []⟩

theorem filed_watches : Watches plainTests plainFilters filedSnapshot := by
  constructor
  · intro dir snap stored
    rw [filedSnapshot, KeyedMap.lookup_insert_eq] at stored
    split at stored
    · rename_i same
      rw [same]
      exact ⟨rfl, [0], List.mem_singleton_self _, [], rfl, nofun⟩
    · cases stored
  · intro dir sub recorded
    rfl

/-- A pass over that directory with these answers. -/
def filedSurvey (answer : Answer Nat) : Survey Nat Int :=
  Survey.look plainTests plainFilters 0 ⟨PollWalk.start plainFilters filedSnapshot, []⟩ [0] [] answer

theorem filed_surveyed {answer : Answer Nat} (emptied : (filedSurvey answer).walk.stack = []) :
    Surveyed plainTests plainFilters 0 filedSnapshot (filedSurvey answer) :=
  ⟨.single (.look [0] [] answer (List.Perm.refl _)), emptied⟩

theorem filed_polls_watch : Watches plainTests plainFilters (filedSurvey ⟨none, none⟩).walk.finish.snapshot :=
  (polls_watch [([0, 1], 5)] (by decide) (.single ⟨0, _, filed_surveyed rfl, rfl⟩)).1

theorem failed_listing_removes_nothing :
    NoFalseRemoval plainTests plainFilters filedSnapshot (filedSurvey ⟨some 100, none⟩).log
      (filedSurvey ⟨some 100, none⟩).walk.finish := by
  apply (no_false_removal_iff filed_watches (filed_surveyed rfl)).mpr
  apply Or.inl
  intro dir entries logged
  cases List.mem_singleton.mp logged

/-- The metadata of the directory's only entry fails: its file is removed, and
the pass is clean. -/
theorem failed_entry_is_removed :
    ∃ survey : Survey Nat Int, Surveyed plainTests plainFilters 0 filedSnapshot survey ∧
      survey.log = [([0], .listed [⟨1, some false, none, none⟩])] ∧
      survey.walk.finish.removals = [[0, 1]] ∧ survey.walk.finish.degraded = false ∧
      ¬NoFalseRemoval plainTests plainFilters filedSnapshot survey.log survey.walk.finish := by
  refine ⟨filedSurvey ⟨some 100, some [some ⟨1, some false, none, none⟩]⟩, filed_surveyed rfl, rfl, rfl, rfl, ?_⟩
  intro promise
  have marked := promise.marked (.inr ⟨[0], [⟨1, some false, none, none⟩], List.mem_singleton_self _, ?_⟩)
  · exact Bool.false_ne_true marked
  · intro complete
    exact complete ⟨1, some false, none, none⟩ (List.mem_singleton_self _) (.inl rfl)

end Panoptikon.DirPoller
