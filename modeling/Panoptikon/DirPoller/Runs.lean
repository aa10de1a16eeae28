import Panoptikon.DirPoller.Reporting

/-!
# Runs of the poller

Every turn keeps a pass sound, so every pass of every run reports exactly what it
looked at, provided that a recorded mtime is found again only on the directory that
was listed. Two directories of one mtime that change places are mistaken for each
other.
-/

namespace Panoptikon.DirPoller

open Foundation

variable {Name Text Dir File : Type} [DecidableEq Name] [DecidableEq Text]
  {tests : FileTests Name Text} {filters : PollFilters Name} {history : History Name Dir File}
  {passStart : Int} {reported : Set (List Name)} {earlier : List (Look Name Dir File)}

variable {stage after : Stage Name Text Dir File}

theorem step_looks (step : PollStep tests filters history passStart stage after) :
    ∃ more, after.looks = stage.looks ++ more := by
  cases step with
  | passOver | statFailed => exact ⟨[], (List.append_nil _).symm⟩
  | skipped taken included unvisited ordered stats here recorded => exact ⟨_, rfl⟩
  | listFailed taken included unvisited ordered later stats differs => exact ⟨[], (List.append_nil _).symm⟩
  | listed taken included unvisited ordered later stats differs here => exact ⟨_, rfl⟩

omit [DecidableEq Text] in
theorem recognized_before {first last : List (Look Name Dir File)} (recognized : Recognized (first ++ last)) :
    Recognized first := by
  intro before look after listing same skipped listed
  refine recognized before look (after ++ last) listing ?_ skipped listed
  rw [same, List.append_assoc, List.cons_append]

theorem step_sound (stamps : history.StampsEntries tests)
    (step : PollStep tests filters history passStart stage after) (recognized : Recognized (earlier ++ after.looks))
    (sound : Sound tests filters history earlier reported passStart stage) :
    Sound tests filters history earlier reported passStart after := by
  cases step with
  | passOver stat entries taken skips =>
    rw [turn_over skips]
    exact sound.passed_over taken skips
  | statFailed taken included unvisited ordered =>
    rw [turn_visits included unvisited]
    exact sound.failed _ _ ordered
  | @skipped walk looks now statAt dir rest modified found taken included unvisited ordered stats here recorded =>
    obtain ⟨snap, stored, own, same⟩ := @visit_recorded Name Text _ _ tests filters passStart
      { walk with stack := rest, visited := dir :: walk.visited } dir none modified recorded
    rw [turn_visits included unvisited, same]
    refine sound.skipped stamps taken ordered stats here stored own fun listing last => ?_
    exact recognized (earlier ++ looks) ⟨dir, true, modified, found, statAt⟩ [] listing
      (List.append_assoc _ _ _).symm rfl last
  | @listFailed walk looks now statAt later dir rest modified taken included unvisited ordered after stats differs =>
    have unlisted := @visit_unlisted Name Text _ _ tests filters passStart
      { walk with stack := rest, visited := dir :: walk.visited } dir modified differs
    rw [turn_visits included unvisited, unlisted]
    exact sound.failed _ _ (le_trans ordered after)
  | @listed walk looks now statAt listAt dir rest modified directory taken included unvisited ordered later stats
      differs here =>
      have listed := @visit_listed Name Text _ _ tests filters passStart
        { walk with stack := rest, visited := dir :: walk.visited } dir modified differs
        ((history.disk listAt).entriesOf directory)
      rw [turn_visits included unvisited, listed]
      exact sound.listed taken unvisited (le_trans ordered later) _

theorem steps_sound (stamps : history.StampsEntries tests)
    (steps : Relation.ReflTransGen (PollStep tests filters history passStart) stage after)
    (recognized : Recognized (earlier ++ after.looks))
    (sound : Sound tests filters history earlier reported passStart stage) :
    Sound tests filters history earlier reported passStart after := by
  induction steps with
  | refl => exact sound
  | tail steps step ih =>
    refine step_sound stamps step recognized (ih ?_)
    obtain ⟨more, same⟩ := step_looks step
    rw [same, ← List.append_assoc] at recognized
    exact recognized_before recognized

omit [DecidableEq Text] in
theorem held_seed_row (snapshot : PollerSnapshot Name Text) (path : List Name) (lastModified : Text)
    (dir : List Name) (name : Name) :
    Held (seedRow snapshot path lastModified) dir name ↔ Held snapshot dir name ∨ path = dir ++ [name] := by
  rw [seedRow]
  split
  · rename_i none_
    rw [List.getLast?_eq_none_iff] at none_
    rw [none_]
    exact (or_iff_left (List.append_ne_nil_of_right_ne_nil _ (List.cons_ne_nil _ _)).symm).symm
  · rename_i last isLast
    obtain ⟨parent, same⟩ := List.getLast?_eq_some_iff.mp isLast
    subst same
    rw [held_insert, List.dropLast_concat, List.append_singleton_inj]
    split
    · rename_i isParent
      subst isParent
      simp only
      rw [AList.mem_insert, ← held_iff_old, or_comm]
      exact or_congr_right ⟨fun named => ⟨trivial, named.symm⟩, fun both => both.2.symm⟩
    · rename_i elsewhere
      exact (or_iff_left fun same => elsewhere same.1.symm).symm

omit [DecidableEq Text] in
theorem held_seed_rows (rows : List (List Name × Text)) (snapshot : PollerSnapshot Name Text)
    (dir : List Name) (name : Name) :
    Held (rows.foldl (fun snapshot row =>
        if isSeeded tests filters row.1 then seedRow snapshot row.1 row.2 else snapshot) snapshot) dir name ↔
      Held snapshot dir name ∨
        (isSeeded tests filters (dir ++ [name]) = true ∧ ∃ row ∈ rows, row.1 = dir ++ [name]) := by
  induction rows generalizing snapshot with
  | nil => simp
  | cons row rows ih =>
    rw [List.foldl_cons, ih]
    simp only [List.mem_cons, exists_eq_or_imp]
    split
    · rename_i seeded
      rw [held_seed_row]
      constructor
      · rintro ((held | same) | ⟨own, later⟩)
        · exact .inl held
        · exact .inr ⟨same ▸ seeded, .inl same⟩
        · exact .inr ⟨own, .inr later⟩
      · rintro (held | ⟨own, same | later⟩)
        · exact .inl (.inl held)
        · exact .inl (.inr same)
        · exact .inr ⟨own, later⟩
    · rename_i unseeded
      constructor
      · rintro (held | ⟨own, later⟩)
        · exact .inl held
        · exact .inr ⟨own, .inr later⟩
      · rintro (held | ⟨own, same | later⟩)
        · exact .inl held
        · exact absurd (same ▸ own) unseeded
        · exact .inr ⟨own, later⟩

omit [DecidableEq Text] in
theorem seed_unrecorded (rows : List (List Name × Text)) (snapshot : PollerSnapshot Name Text)
    (unrecorded : ∀ dir snap, snapshot.lookup dir = some snap → snap.dirModified = none) :
    ∀ dir snap, (rows.foldl (fun snapshot row =>
        if isSeeded tests filters row.1 then seedRow snapshot row.1 row.2 else snapshot)
      snapshot).lookup dir = some snap → snap.dirModified = none := by
  induction rows generalizing snapshot with
  | nil => exact unrecorded
  | cons row rows ih =>
    refine ih _ fun dir snap stored => ?_
    simp only at stored
    split at stored
    · rw [seedRow] at stored
      split at stored
      · exact unrecorded dir snap stored
      · rw [KeyedMap.lookup_insert_eq] at stored
        split at stored
        · cases stored
          cases old : snapshot.lookup row.1.dropLast with
          | none => rfl
          | some own => exact unrecorded _ own old
        · exact unrecorded dir snap stored
    · exact unrecorded dir snap stored

section

variable (tests filters) (history : History Name Dir File)

structure PollerSound (poller : Poller Name Text) (looks : List (Look Name Dir File)) : Prop where
  held : ∀ dir name, dir ++ [name] ∈ poller.reported ↔ Held poller.snapshot dir name
  named : [] ∉ poller.reported
  recorded : Recorded tests filters history looks poller.now poller.snapshot

end

omit [DecidableEq Text] in
theorem seed_sound (looks : List (Look Name Dir File)) (rows : List (List Name × Text)) (now : Nat) :
    PollerSound tests filters history (Poller.seed tests filters rows now) looks := by
  refine ⟨fun dir name => ?_, fun nil => nil.1 rfl, fun dir snap modified stored own => ?_⟩
  · rw [Poller.seed, seedSnapshot, held_seed_rows]
    rw [or_iff_right (fun ⟨_, absent, _⟩ => by rw [AList.lookup_empty] at absent; cases absent)]
    exact ⟨fun seeded => seeded.2, fun seeded => ⟨List.append_ne_nil_of_right_ne_nil _ (List.cons_ne_nil _ _), seeded⟩⟩
  · have none_ := seed_unrecorded rows ∅ (fun _ _ absent => by rw [AList.lookup_empty] at absent; cases absent)
      dir snap stored
    rw [none_] at own
    cases own

omit [DecidableEq Text] in
theorem start_sound {poller : Poller Name Text} (sound : PollerSound tests filters history poller earlier)
    {start : Nat} (ordered : poller.now ≤ start) (started : passStart ≤ history.clock start) :
    Sound tests filters history earlier poller.reported passStart
      ⟨PollWalk.start filters poller.snapshot, [], start⟩ := by
  have unreported : reportedAfter poller.reported (PollWalk.start filters poller.snapshot) = poller.reported := by
    ext path
    constructor
    · rintro (⟨there, _⟩ | ⟨_, absent⟩)
      · exact there
      · cases absent
    · exact fun there => .inl ⟨there, List.not_mem_nil⟩
  refine ⟨⟨?_, ?_, nofun, nofun⟩, started, ?_, nofun, nofun, fun _ root member _ => .inr member, nofun⟩
  · rw [unreported]
    exact sound.held
  · rw [unreported]
    exact sound.named
  · rw [List.append_nil]
    exact recorded_later sound.recorded ordered

theorem pass_sound (stamps : history.StampsEntries tests) {poller after : Poller Name Text}
    {looks : List (Look Name Dir File)} {degraded : Bool}
    (pass : Pass tests filters history poller looks degraded after)
    (recognized : Recognized (earlier ++ looks)) (sound : PollerSound tests filters history poller earlier) :
    PollerSound tests filters history after (earlier ++ looks) := by
  obtain ⟨passStart, start, stage, ordered, started, steps, ended, rfl, rfl, rfl⟩ := pass.stage
  have reached := steps_sound stamps steps recognized (start_sound sound ordered started)
  have settled := reached.filed.finish
  refine ⟨settled.held, settled.named, fun dir snap modified stored own => ?_⟩
  exact reached.recorded dir snap modified (lookup_finish stage.walk stored).1 own

theorem poll_run_sound (stamps : history.StampsEntries tests) {poller : Poller Name Text}
    {looks : List (Look Name Dir File)} (run : PollRun tests filters history poller looks)
    (recognized : Recognized looks) : PollerSound tests filters history poller looks := by
  induction run with
  | seed rows now => exact seed_sound [] rows now
  | reseed run rows ih => exact seed_sound _ rows _
  | pass run pass ih => exact pass_sound stamps pass recognized (ih (recognized_before recognized))

/-- After a pass, what has been reported of a directory it looked at are the admissible files it
held then. After one that is not degraded nothing else has been reported, and the pass looked at
every root and every directory below one it looked at. -/
theorem poller_loses_nothing (stamps : history.StampsEntries tests) {poller after : Poller Name Text}
    {looks passLooks : List (Look Name Dir File)} {degraded : Bool}
    (run : PollRun tests filters history poller looks)
    (pass : Pass tests filters history poller passLooks degraded after)
    (recognized : Recognized (looks ++ passLooks)) :
    (∀ look ∈ passLooks, ∃ dir, look.shown = .directory dir ∧ ∀ name,
      (look.path ++ [name] ∈ after.reported ↔
        (history.disk look.seenAt).Admissible tests filters look.path dir name)) ∧
    (degraded = false →
      (∀ path ∈ after.reported, ∃ look ∈ passLooks, ∃ name, path = look.path ++ [name]) ∧
      (∀ root ∈ filters.roots, isExcluded root filters.excludedRoots = false →
        ∃ look ∈ passLooks, look.path = root) ∧
      ∀ look ∈ passLooks, ∀ dir name, look.shown = .directory dir →
        (history.disk look.seenAt).Walkable tests dir name →
        isExcluded (look.path ++ [name]) filters.excludedRoots = false →
        ∃ below ∈ passLooks, below.path = look.path ++ [name]) := by
  have sound := poll_run_sound stamps run (recognized_before recognized)
  obtain ⟨passStart, start, stage, ordered, started, steps, ended, rfl, rfl, rfl⟩ := pass.stage
  have reached := steps_sound stamps steps recognized (start_sound sound ordered started)
  have settled := reached.filed.finish
  refine ⟨fun look member => ?_, fun clean => ⟨fun path there => ?_, fun root member included => ?_,
    fun look member dir name shown walkable included => ?_⟩⟩
  · obtain ⟨visited, dir, snap, shown, stored, shows_⟩ := reached.shown look member
    refine ⟨dir, shown, fun name => (settled.held look.path name).trans ?_⟩
    rw [Held, lookup_finish_of_visited stage.walk visited, stored, ← shows_.files]
    constructor
    · rintro ⟨_, same, held⟩
      cases same
      exact held
    · intro held
      exact ⟨snap, rfl, held⟩
  · rcases List.eq_nil_or_concat path with rfl | ⟨dir, name, same⟩
    · exact absurd there settled.named
    · rw [List.concat_eq_append] at same
      subst same
      obtain ⟨snap, stored, _⟩ := (settled.held dir name).mp there
      obtain ⟨look, member, path⟩ := reached.looked clean dir ((lookup_finish stage.walk stored).2 clean)
      exact ⟨look, member, name, by rw [path]⟩
  · rcases reached.rooted clean root member included with visited | waiting
    · exact reached.looked clean root visited
    · rw [ended] at waiting
      cases waiting
  · obtain ⟨visited, own, snap, shown_, stored, shows_⟩ := reached.shown look member
    have sameDir : own = dir := by
      rw [shown] at shown_
      cases shown_
      rfl
    subst sameDir
    rcases reached.descended clean look member snap stored name ((shows_.subdirs name).mpr walkable) included with
      visited | waiting
    · exact reached.looked clean _ visited
    · rw [ended] at waiting
      cases waiting

/-- Every name is a file's, and every time is its own text. -/
def plainTests : FileTests Nat Int := ⟨fun _ => false, fun _ => false, some⟩

def plainFilters : PollFilters Nat := ⟨[[0]], [], fun _ => true⟩

/-- The watched root holds two directories, `first` under 1 and `second` under 2, each with a
file of its own. -/
def housed (modified : Int) (first second : Nat) : Disk Nat Nat Nat where
  top := 0
  directories := fun dir =>
    if dir = 0 then ⟨0, (∅ : KeyedMap Nat (Node Nat Nat)).insert 0 (.directory 1)⟩
    else if dir = 1 then
      ⟨modified, ((∅ : KeyedMap Nat (Node Nat Nat)).insert 1 (.directory first)).insert 2 (.directory second)⟩
    else ⟨0, (∅ : KeyedMap Nat (Node Nat Nat)).insert (dir + 3) (.file dir)⟩
  files := fun _ => ⟨0, 1⟩

/-- A moment is ten seconds, and at the tenth the two directories change places. -/
def swapping : History Nat Nat Nat where
  disk := fun moment => if moment < 10 then housed 0 2 3 else housed 100000000000 3 2
  clock := fun moment => 10000000000 * (moment + 1)
  monotone := by
    intro first last ordered
    simp only
    omega

theorem swapping_stamps : swapping.StampsEntries plainTests := by
  refine ⟨fun dir => ⟨fun moment => ?_⟩, fun moment file => rfl⟩
  by_cases root : dir = 1
  · subst root
    rcases Nat.lt_trichotomy moment 9 with before | now | after
    · refine .inl ?_
      simp only [swapping, show moment < 10 by omega, show moment + 1 < 10 by omega, if_true, and_self]
    · subst now
      exact .inr (by decide)
    · refine .inl ?_
      simp only [swapping, show ¬moment < 10 by omega, show ¬moment + 1 < 10 by omega, if_false, and_self]
  · refine .inl ?_
    simp only [swapping]
    split <;> split <;> simp only [housed, root, if_false, and_self]

/-- What a turn makes of a walk that takes a directory and finds `modified`, at a moment of the
pass that starts at `start`. -/
def turned (start : Nat) (walk : PollWalk Nat Int) (rest : List (List Nat)) (path : List Nat) (modified : Int)
    (directory : Option Nat) : PollWalk Nat Int :=
  ({ walk with stack := rest } : PollWalk Nat Int).turn plainTests plainFilters (swapping.clock start) path
    (some modified) (directory.map (swapping.disk start).entriesOf)

theorem turned_lists (start : Nat) (walk : PollWalk Nat Int) (looks : List (Look Nat Nat Nat))
    (rest : List (List Nat)) (path : List Nat) (modified : Int) (directory : Nat)
    (taken : walk.stack.Perm (path :: rest)) (unvisited : path ∉ walk.visited)
    (stats : (swapping.disk start).Stats path modified)
    (differs : (walk.snapshot.lookup path).bind DirSnapshot.dirModified ≠ some modified)
    (here : (swapping.disk start).find path = some (.directory directory)) :
    PollStep plainTests plainFilters swapping (swapping.clock start) ⟨walk, looks, start⟩
      ⟨turned start walk rest path modified (some directory),
        looks ++ [⟨path, false, modified, .directory directory, start⟩], start⟩ :=
  .listed taken rfl unvisited (le_refl start) (le_refl start) stats differs here

theorem turned_skips (start : Nat) (walk : PollWalk Nat Int) (looks : List (Look Nat Nat Nat))
    (rest : List (List Nat)) (path : List Nat) (modified : Int) (directory : Nat)
    (taken : walk.stack.Perm (path :: rest)) (unvisited : path ∉ walk.visited)
    (stats : (swapping.disk start).Stats path modified)
    (recorded : (walk.snapshot.lookup path).bind DirSnapshot.dirModified = some modified)
    (here : (swapping.disk start).find path = some (.directory directory)) :
    PollStep plainTests plainFilters swapping (swapping.clock start) ⟨walk, looks, start⟩
      ⟨turned start walk rest path modified none,
        looks ++ [⟨path, true, modified, .directory directory, start⟩], start⟩ :=
  .skipped taken rfl unvisited (le_refl start) stats here recorded

def firstStart : PollWalk Nat Int := PollWalk.start plainFilters ∅

def firstRoot : PollWalk Nat Int := turned 0 firstStart [] [0] 0 (some 1)

def firstSecond : PollWalk Nat Int := turned 0 firstRoot [[0, 1]] [0, 2] 0 (some 3)

def firstWalk : PollWalk Nat Int := turned 0 firstSecond [] [0, 1] 0 (some 2)

def firstLooks : List (Look Nat Nat Nat) :=
  [⟨[0], false, 0, .directory 1, 0⟩, ⟨[0, 2], false, 0, .directory 3, 0⟩, ⟨[0, 1], false, 0, .directory 2, 0⟩]

def firstAfter : Poller Nat Int :=
  ⟨firstWalk.finish.snapshot,
    reportedAfter (Poller.seed plainTests plainFilters [] 0).reported firstWalk.finish, 0⟩

theorem first_pass : Pass plainTests plainFilters swapping (Poller.seed plainTests plainFilters [] 0) firstLooks
    false firstAfter := by
  have root := turned_lists 0 firstStart [] [] [0] 0 1 (by decide +kernel) (by decide +kernel) rfl
    (by decide +kernel) rfl
  have second := turned_lists 0 firstRoot (firstLooks.take 1) [[0, 1]] [0, 2] 0 3 (by decide +kernel)
    (by decide +kernel) rfl (by decide +kernel) rfl
  have first := turned_lists 0 firstSecond (firstLooks.take 2) [] [0, 1] 0 2 (by decide +kernel)
    (by decide +kernel) rfl (by decide +kernel) rfl
  exact ⟨swapping.clock 0, 0, ⟨firstWalk, firstLooks, 0⟩, le_refl 0, le_refl _,
    .head root (.head second (.single first)), by decide +kernel, rfl, by decide +kernel, rfl⟩

/-- A first pass over an unseeded poller reports the files of the directories it lists. -/
theorem first_pass_reports_all :
    (∀ look ∈ firstLooks, ∃ dir, look.shown = .directory dir ∧ ∀ name,
      (look.path ++ [name] ∈ firstAfter.reported ↔
        (swapping.disk look.seenAt).Admissible plainTests plainFilters look.path dir name)) ∧
    ∀ path ∈ firstAfter.reported, ∃ look ∈ firstLooks, ∃ name, path = look.path ++ [name] := by
  have recognized : Recognized ([] ++ firstLooks) := by
    intro before look after listing same skipped last
    have listed : ∀ look ∈ firstLooks, look.skipped = false := by decide
    have member : look ∈ [] ++ firstLooks := same ▸ List.mem_append_right _ List.mem_cons_self
    rw [listed look member] at skipped
    cases skipped
  have exact_ := poller_loses_nothing swapping_stamps (.seed [] 0) first_pass recognized
  exact ⟨exact_.1, (exact_.2 rfl).1⟩

def secondStart : PollWalk Nat Int := PollWalk.start plainFilters firstWalk.finish.snapshot

def secondRoot : PollWalk Nat Int := turned 20 secondStart [] [0] 100000000000 (some 1)

def secondSecond : PollWalk Nat Int := turned 20 secondRoot [[0, 1]] [0, 2] 0 none

def secondWalk : PollWalk Nat Int := turned 20 secondSecond [] [0, 1] 0 none

def secondLooks : List (Look Nat Nat Nat) :=
  [⟨[0], false, 100000000000, .directory 1, 20⟩, ⟨[0, 2], true, 0, .directory 2, 20⟩,
    ⟨[0, 1], true, 0, .directory 3, 20⟩]

def secondAfter : Poller Nat Int :=
  ⟨secondWalk.finish.snapshot, reportedAfter firstAfter.reported secondWalk.finish, 20⟩

/-- The pass after the exchange lists the root and finds both recorded mtimes again. -/
theorem second_pass : Pass plainTests plainFilters swapping firstAfter secondLooks false secondAfter := by
  have root := turned_lists 20 secondStart [] [] [0] 100000000000 1 (by decide +kernel) (by decide +kernel) rfl
    (by decide +kernel) rfl
  have second := turned_skips 20 secondRoot (secondLooks.take 1) [[0, 1]] [0, 2] 0 2 (by decide +kernel)
    (by decide +kernel) rfl (by decide +kernel) rfl
  have first := turned_skips 20 secondSecond (secondLooks.take 2) [] [0, 1] 0 3 (by decide +kernel)
    (by decide +kernel) rfl (by decide +kernel) rfl
  exact ⟨swapping.clock 20, 20, ⟨secondWalk, secondLooks, 20⟩, by decide, le_refl _,
    .head root (.head second (.single first)), by decide +kernel, rfl, by decide +kernel, rfl⟩

/-- The file that came with the exchange is in the directory the pass looked at, and is not
reported. -/
theorem exchanged_directory_is_missed :
    swapping.StampsEntries plainTests ∧
    PollRun plainTests plainFilters swapping firstAfter ([] ++ firstLooks) ∧
    Pass plainTests plainFilters swapping firstAfter secondLooks false secondAfter ∧
    ∃ look ∈ secondLooks, look.path = [0, 1] ∧ look.shown = .directory 3 ∧
      (swapping.disk look.seenAt).Admissible plainTests plainFilters [0, 1] 3 6 ∧
      [0, 1, 6] ∉ secondAfter.reported := by
  refine ⟨swapping_stamps, .pass (.seed [] 0) first_pass, second_pass,
    ⟨[0, 1], true, 0, .directory 3, 20⟩, List.mem_cons_of_mem _ (List.mem_cons_of_mem _ List.mem_cons_self),
    rfl, rfl, ⟨3, rfl, rfl, rfl, rfl, rfl⟩, ?_⟩
  have firstChanges : ∀ change ∈ firstWalk.finish.changes, change.1 ≠ [0, 1, 6] := by decide +kernel
  have secondChanges : ∀ change ∈ secondWalk.finish.changes, change.1 ≠ [0, 1, 6] := by decide +kernel
  rintro (⟨⟨⟨_, _, _, absent, _⟩, _⟩ | ⟨found, change⟩, _⟩ | ⟨found, change⟩)
  · cases absent
  · exact firstChanges _ change rfl
  · exact secondChanges _ change rfl

end Panoptikon.DirPoller
