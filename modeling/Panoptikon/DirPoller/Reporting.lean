import Panoptikon.DirPoller.Listings

/-!
# The poller loses no change

What has been reported is what the snapshot holds, and a recorded mtime stands for
the directory as it was last listed. A pass that finds the recorded mtime finds the
directory unchanged, since a settled mtime is older than any later change.
-/

namespace Panoptikon.DirPoller

open Foundation

variable {Name Text Dir File : Type} [DecidableEq Name]

def Held (snapshot : PollerSnapshot Name Text) (dir : List Name) (name : Name) : Prop :=
  ∃ snap, snapshot.lookup dir = some snap ∧ name ∈ snap.files

variable (snapshot : PollerSnapshot Name Text)

theorem held_insert (dir other : List Name)
    (snap : DirSnapshot Name Text) (name : Name) : Held (snapshot.insert dir snap) other name ↔
      if other = dir then name ∈ snap.files else Held snapshot other name := by
  rw [Held, KeyedMap.lookup_insert_eq]
  split
  · constructor
    · rintro ⟨_, same, held⟩
      cases same
      exact held
    · exact fun held => ⟨snap, rfl, held⟩
  · exact Iff.rfl

theorem held_iff_old (dir : List Name) (name : Name) :
    Held snapshot dir name ↔ name ∈ ((snapshot.lookup dir).getD .default).files := by
  cases stored : snapshot.lookup dir with
  | none =>
    rw [Option.getD_none, Held, stored]
    exact iff_of_false (fun ⟨_, same, _⟩ => by cases same) (AList.notMem_empty name)
  | some snap =>
    rw [Option.getD_some, Held, stored]
    exact ⟨fun ⟨_, same, held⟩ => by cases same; exact held, fun held => ⟨snap, rfl, held⟩⟩

variable {path : List Name}

theorem visited_mark_subtree (fuel : Nat) (stack visited : List (List Name)) (before : path ∈ visited) :
    path ∈ markSubtree snapshot fuel stack visited := by
  induction fuel generalizing stack visited with
  | zero => exact before
  | succ fuel ih =>
    cases stack with
    | nil => exact before
    | cons current stack => exact ih _ _ (List.mem_cons_of_mem _ before)

variable [DecidableEq Text] {tests : FileTests Name Text} {filters : PollFilters Name} {passStart : Int}
  {walk : PollWalk Name Text} {dir : List Name}

variable {entries : Option (List (Name × Metadata))}

theorem turn_over {rest : List (List Name)} {stat : Option Int}
    (skips : isExcluded dir filters.excludedRoots = true ∨ dir ∈ walk.visited) :
    ({ walk with stack := rest } : PollWalk Name Text).turn tests filters passStart dir stat entries =
      { walk with stack := rest } := by
  rw [PollWalk.turn]
  split
  · rfl
  · rename_i included
    exact if_pos (skips.resolve_left included)

theorem turn_visits {rest : List (List Name)} {stat : Option Int}
    (included : isExcluded dir filters.excludedRoots = false)
    (unvisited : dir ∉ walk.visited) :
    ({ walk with stack := rest } : PollWalk Name Text).turn tests filters passStart dir stat entries =
      ({ walk with stack := rest, visited := dir :: walk.visited } : PollWalk Name Text).visit tests filters
        passStart dir stat entries := by
  rw [PollWalk.turn, if_neg (by simp [included])]
  exact if_neg unvisited

variable {modified : Int}

theorem visit_recorded (recorded : (walk.snapshot.lookup dir).bind DirSnapshot.dirModified = some modified) :
    ∃ snap, walk.snapshot.lookup dir = some snap ∧ snap.dirModified = some modified ∧
      walk.visit tests filters passStart dir (some modified) entries = walk.push dir snap.subdirs := by
  obtain ⟨snap, stored, same⟩ := Option.bind_eq_some_iff.mp recorded
  refine ⟨snap, stored, same, ?_⟩
  unfold PollWalk.visit
  simp only
  rw [if_pos recorded, stored]

section

variable (differs : (walk.snapshot.lookup dir).bind DirSnapshot.dirModified ≠ some modified)

include differs

theorem visit_unlisted :
    walk.visit tests filters passStart dir (some modified) none = walk.fail dir := by
  rw [PollWalk.visit]
  exact if_neg differs

theorem visit_listed {entries : List (Name × Metadata)} :
    walk.visit tests filters passStart dir (some modified) (some entries) =
      walk.enumerated passStart dir modified (enumerateDir tests filters dir entries) := by
  rw [PollWalk.visit]
  exact if_neg differs

end

/-- What a pass has reported so far makes the files of its snapshot, and is about the directories
it has visited. -/
structure Filed (reported : Set (List Name)) (walk : PollWalk Name Text) : Prop where
  held : ∀ dir name, dir ++ [name] ∈ reportedAfter reported walk ↔ Held walk.snapshot dir name
  named : [] ∉ reportedAfter reported walk
  changed : ∀ dir name found, (dir ++ [name], found) ∈ walk.changes → dir ∈ walk.visited
  removed : ∀ dir name, dir ++ [name] ∈ walk.removals → dir ∈ walk.visited

variable {reported : Set (List Name)}

omit [DecidableEq Text] in
theorem Filed.more_visited {after : PollWalk Name Text} (filed : Filed reported walk)
    (snapshot : after.snapshot = walk.snapshot) (changes : after.changes = walk.changes)
    (removals : after.removals = walk.removals)
    (visited : ∀ path, path ∈ walk.visited → path ∈ after.visited) : Filed reported after := by
  have same : reportedAfter reported after = reportedAfter reported walk := by
    rw [reportedAfter, reportedAfter, changes, removals]
  refine ⟨?_, ?_, ?_, ?_⟩
  · rw [same, snapshot]
    exact filed.held
  · rw [same]
    exact filed.named
  · rw [changes]
    exact fun dir name found change => visited dir (filed.changed dir name found change)
  · rw [removals]
    exact fun dir name gone => visited dir (filed.removed dir name gone)

theorem listed_changes {old : DirSnapshot Name Text} {listing : DirListing Name Text} {name : Name} :
    name ∈ listing.files ↔ (name ∈ old.files ∧ name ∈ listing.files) ∨
      ∃ found, ⟨name, found⟩ ∈ listing.files.entries.filter
        fun file => !PollWalk.knownUnchanged old file.1 file.2 := by
  constructor
  · intro listed
    by_cases known : name ∈ old.files
    · exact .inl ⟨known, listed⟩
    · obtain ⟨found, stored⟩ := Option.isSome_iff_exists.mp (AList.lookup_isSome.mpr listed)
      refine .inr ⟨found, List.mem_filter.mpr ⟨AList.mem_lookup_iff.mp stored, ?_⟩⟩
      rw [PollWalk.knownUnchanged, AList.lookup_eq_none.mpr known]
      rfl
  · rintro (⟨_, listed⟩ | ⟨found, changed⟩)
    · exact listed
    · exact AList.lookup_isSome.mp
        (Option.isSome_iff_exists.mpr ⟨found, AList.mem_lookup_iff.mpr (List.mem_filter.mp changed).1⟩)

theorem mem_enumerated_changes {listing : DirListing Name Text}
    {found : FileMeta Text} : (path, found) ∈ (walk.enumerated passStart dir modified listing).changes ↔
      (path, found) ∈ walk.changes ∨ ∃ name, path = dir ++ [name] ∧
        ⟨name, found⟩ ∈ listing.files.entries.filter fun file =>
          !PollWalk.knownUnchanged ((walk.snapshot.lookup dir).getD .default) file.1 file.2 := by
  rw [PollWalk.enumerated]
  simp only
  rw [List.mem_append, List.mem_map]
  refine or_congr_right ⟨?_, ?_⟩
  · rintro ⟨⟨name, own⟩, changed, same⟩
    cases same
    exact ⟨name, rfl, changed⟩
  · rintro ⟨name, rfl, changed⟩
    exact ⟨⟨name, found⟩, changed, rfl⟩

theorem mem_enumerated_removals {listing : DirListing Name Text} :
    path ∈ (walk.enumerated passStart dir modified listing).removals ↔
      path ∈ walk.removals ∨ ∃ name, path = dir ++ [name] ∧ Held walk.snapshot dir name ∧
        name ∉ listing.files := by
  rw [PollWalk.enumerated]
  simp only
  rw [List.mem_append, List.mem_map]
  refine or_congr_right ⟨?_, ?_⟩
  · rintro ⟨name, gone, rfl⟩
    rw [List.mem_filter, decide_eq_true_iff] at gone
    exact ⟨name, rfl, (held_iff_old _ _ _).mpr (AList.mem_keys.mpr gone.1), gone.2⟩
  · rintro ⟨name, rfl, held, gone⟩
    refine ⟨name, ?_, rfl⟩
    rw [List.mem_filter, decide_eq_true_iff]
    exact ⟨AList.mem_keys.mp ((held_iff_old _ _ _).mp held), gone⟩

theorem Filed.enumerated (filed : Filed reported walk) (unvisited : dir ∉ walk.visited) (modified : Int)
    (listing : DirListing Name Text) :
    Filed reported ({ walk with visited := dir :: walk.visited }.enumerated passStart dir modified listing) := by
  have fresh : ∀ name, (dir ++ [name] ∈ reported ↔ Held walk.snapshot dir name) := by
    intro name
    rw [← filed.held]
    constructor
    · exact fun there => .inl ⟨there, fun gone => unvisited (filed.removed dir name gone)⟩
    · rintro (⟨there, _⟩ | ⟨found, change⟩)
      · exact there
      · exact absurd (filed.changed dir name found change) unvisited
  refine ⟨fun other name => ?_, ?_, fun other name found change => ?_, fun other name gone => ?_⟩
  · rw [reportedAfter, Set.mem_ofPred_eq, mem_enumerated_removals]
    simp only [mem_enumerated_changes]
    have inserted : Held ({ walk with visited := dir :: walk.visited }.enumerated passStart dir modified
        listing).snapshot other name ↔ if other = dir then name ∈ listing.files else Held walk.snapshot other name :=
      held_insert walk.snapshot dir other _ name
    rw [inserted]
    split
    · rename_i same
      subst same
      rw [@listed_changes Name Text _ _ ((walk.snapshot.lookup other).getD .default), ← held_iff_old, fresh]
      constructor
      · rintro (⟨held, kept⟩ | ⟨found, change | ⟨own, same, changed⟩⟩)
        · by_cases listed : name ∈ listing.files
          · exact .inl ⟨held, listed⟩
          · exact absurd (.inr ⟨name, rfl, held, listed⟩) kept
        · exact absurd (filed.changed other name found change) unvisited
        · rw [List.append_singleton_inj] at same
          obtain ⟨_, rfl⟩ := same
          exact .inr ⟨found, changed⟩
      · rintro (⟨held, listed⟩ | ⟨found, changed⟩)
        · refine .inl ⟨held, ?_⟩
          rintro (gone | ⟨own, same, _, missing⟩)
          · exact unvisited (filed.removed other name gone)
          · rw [List.append_singleton_inj] at same
            obtain ⟨_, rfl⟩ := same
            exact missing listed
        · exact .inr ⟨found, .inr ⟨name, rfl, changed⟩⟩
    · rename_i differs
      rw [← filed.held, reportedAfter, Set.mem_ofPred_eq]
      have elsewhere : ∀ own, other ++ [name] ≠ dir ++ [own] := by
        intro own same
        rw [List.append_singleton_inj] at same
        exact differs same.1
      constructor
      · rintro (⟨there, kept⟩ | ⟨found, change | ⟨own, same, _⟩⟩)
        · exact .inl ⟨there, fun gone => kept (.inl gone)⟩
        · exact .inr ⟨found, change⟩
        · exact absurd same (elsewhere own)
      · rintro (⟨there, kept⟩ | ⟨found, change⟩)
        · refine .inl ⟨there, ?_⟩
          rintro (gone | ⟨own, same, _⟩)
          · exact kept gone
          · exact elsewhere own same
        · exact .inr ⟨found, .inl change⟩
  · rintro (⟨there, kept⟩ | ⟨found, change⟩)
    · exact filed.named (.inl ⟨there, fun gone => kept (mem_enumerated_removals.mpr (.inl gone))⟩)
    · rcases mem_enumerated_changes.mp change with before | ⟨name, same, _⟩
      · exact filed.named (.inr ⟨found, before⟩)
      · exact absurd same.symm (List.append_ne_nil_of_right_ne_nil _ (List.cons_ne_nil _ _))
  · rcases mem_enumerated_changes.mp change with before | ⟨own, same, _⟩
    · exact List.mem_cons_of_mem _ (filed.changed other name found before)
    · rw [List.append_singleton_inj] at same
      rw [same.1]
      exact List.mem_cons_self
  · rcases mem_enumerated_removals.mp gone with before | ⟨own, same, _⟩
    · exact List.mem_cons_of_mem _ (filed.removed other name before)
    · rw [List.append_singleton_inj] at same
      rw [same.1]
      exact List.mem_cons_self

omit [DecidableEq Text] in
theorem lookup_retire (walk : PollWalk Name Text) (dir other : List Name) :
    (walk.retire dir).snapshot.lookup other = if other = dir then none else walk.snapshot.lookup other := by
  rw [PollWalk.retire]
  split
  · rename_i absent
    split
    · rename_i same
      rw [same, absent]
    · rfl
  · exact KeyedMap.lookup_erase_eq walk.snapshot dir other

omit [DecidableEq Text] in
theorem mem_retire_removals (walk : PollWalk Name Text) (dir path : List Name) : path ∈ (walk.retire dir).removals ↔
      path ∈ walk.removals ∨ ∃ name, path = dir ++ [name] ∧ Held walk.snapshot dir name := by
  rw [PollWalk.retire]
  split
  · rename_i absent
    constructor
    · exact .inl
    · rintro (gone | ⟨_, _, snap, stored, _⟩)
      · exact gone
      · rw [absent] at stored
        cases stored
  · rename_i snap stored
    simp only
    rw [List.mem_append, List.mem_map]
    refine or_congr_right ⟨?_, ?_⟩
    · rintro ⟨name, held, rfl⟩
      exact ⟨name, rfl, snap, stored, AList.mem_keys.mpr held⟩
    · rintro ⟨name, rfl, own, same, held⟩
      rw [stored] at same
      cases same
      exact ⟨name, AList.mem_keys.mp held, rfl⟩

omit [DecidableEq Text] in
theorem retire_keeps (walk : PollWalk Name Text) (dir : List Name) :
    (walk.retire dir).changes = walk.changes ∧ (walk.retire dir).visited = walk.visited := by
  rw [PollWalk.retire]
  split <;> exact ⟨rfl, rfl⟩

/-- What has been reported makes the files of the snapshot, and no change is about a directory
that was not visited. -/
structure Settled (reported : Set (List Name)) (walk : PollWalk Name Text) : Prop where
  held : ∀ dir name, dir ++ [name] ∈ reportedAfter reported walk ↔ Held walk.snapshot dir name
  named : [] ∉ reportedAfter reported walk
  changed : ∀ dir name found, (dir ++ [name], found) ∈ walk.changes → dir ∈ walk.visited

omit [DecidableEq Text] in
theorem Settled.retire (settled : Settled reported walk) (unvisited : dir ∉ walk.visited) :
    Settled reported (walk.retire dir) := by
  obtain ⟨changes, visited⟩ := retire_keeps walk dir
  refine ⟨fun other name => ?_, ?_, ?_⟩
  · have here := settled.held other name
    rw [reportedAfter, Set.mem_ofPred_eq] at here
    rw [reportedAfter, Set.mem_ofPred_eq, mem_retire_removals, changes, Held, lookup_retire]
    split
    · rename_i same
      subst same
      refine iff_of_false ?_ (fun ⟨_, absent, _⟩ => by cases absent)
      rintro (⟨there, kept⟩ | ⟨found, change⟩)
      · rw [not_or] at kept
        exact kept.2 ⟨name, rfl, here.mp (.inl ⟨there, kept.1⟩)⟩
      · exact unvisited (settled.changed other name found change)
    · rename_i differs
      have elsewhere : ¬∃ own, other ++ [name] = dir ++ [own] ∧ Held walk.snapshot dir own := by
        rintro ⟨own, same, _⟩
        rw [List.append_singleton_inj] at same
        exact differs same.1
      rw [or_iff_left elsewhere]
      exact here
  · rintro (⟨there, kept⟩ | change)
    · rw [mem_retire_removals, not_or] at kept
      exact settled.named (.inl ⟨there, kept.1⟩)
    · rw [changes] at change
      exact settled.named (.inr change)
  · rw [changes, visited]
    exact settled.changed

omit [DecidableEq Text] in
theorem lookup_retired (dirs : List (List Name)) (walk : PollWalk Name Text) (dir : List Name) :
    (dirs.foldl PollWalk.retire walk).snapshot.lookup dir =
      if dir ∈ dirs then none else walk.snapshot.lookup dir := by
  induction dirs generalizing walk with
  | nil => rfl
  | cons first rest ih =>
    rw [List.foldl_cons, ih, lookup_retire]
    by_cases here : dir = first <;> by_cases later : dir ∈ rest <;> simp [here, later]

omit [DecidableEq Text] in
theorem Settled.retired (settled : Settled reported walk) (dirs : List (List Name))
    (unvisited : ∀ dir ∈ dirs, dir ∉ walk.visited) : Settled reported (dirs.foldl PollWalk.retire walk) := by
  induction dirs generalizing walk with
  | nil => exact settled
  | cons first rest ih =>
    rw [List.forall_mem_cons] at unvisited
    refine ih (settled.retire unvisited.1) fun dir later => ?_
    rw [(retire_keeps walk first).2]
    exact unvisited.2 dir later

omit [DecidableEq Text] in
theorem Filed.finish (filed : Filed reported walk) : Settled reported walk.finish := by
  have settled : Settled reported walk := ⟨filed.held, filed.named, filed.changed⟩
  rw [PollWalk.finish]
  split
  · exact settled
  · refine settled.retired _ fun dir stale => ?_
    exact of_decide_eq_true (List.mem_filter.mp stale).2

variable {dir : List Name}

omit [DecidableEq Text] in
theorem lookup_finish (walk : PollWalk Name Text) {snap : DirSnapshot Name Text}
    (stored : walk.finish.snapshot.lookup dir = some snap) :
    walk.snapshot.lookup dir = some snap ∧ (walk.degraded = false → dir ∈ walk.visited) := by
  rw [PollWalk.finish] at stored
  split at stored
  · rename_i degraded
    exact ⟨stored, fun clean => absurd (degraded.symm.trans clean) (by decide)⟩
  · rw [lookup_retired] at stored
    split at stored
    · cases stored
    · rename_i kept
      refine ⟨stored, fun _ => ?_⟩
      by_contra unvisited
      refine kept (List.mem_filter.mpr ⟨?_, decide_eq_true unvisited⟩)
      rw [← AList.mem_keys, ← AList.lookup_isSome, stored]
      rfl

omit [DecidableEq Text] in
theorem lookup_finish_of_visited (walk : PollWalk Name Text) (visited : dir ∈ walk.visited) :
    walk.finish.snapshot.lookup dir = walk.snapshot.lookup dir := by
  rw [PollWalk.finish]
  split
  · rfl
  · rw [lookup_retired, if_neg]
    intro stale
    exact of_decide_eq_true (List.mem_filter.mp stale).2 visited

theorem last_listing_skipped {look : Look Name Dir File} (looks : List (Look Name Dir File))
    (skipped : look.skipped = true) (path : List Name) :
    lastListing (looks ++ [look]) path = lastListing looks path := by
  rw [lastListing, List.filter_append, List.filter_cons_of_neg (by simp [skipped]), List.filter_nil,
    List.append_nil, lastListing]

theorem last_listing_listed {look : Look Name Dir File} (looks : List (Look Name Dir File))
    (listed : look.skipped = false) (path : List Name) :
    lastListing (looks ++ [look]) path = if path = look.path then some look else lastListing looks path := by
  rw [lastListing, List.filter_append]
  split
  · rename_i same
    rw [List.filter_cons_of_pos (by simp [listed, same]), List.filter_nil, List.getLast?_concat]
  · rename_i differs
    rw [List.filter_cons_of_neg (by simp [Ne.symm differs]), List.filter_nil, List.append_nil, lastListing]

section

variable (tests filters) (history : History Name Dir File)

/-- A recorded mtime is that of the last listing, which had long settled, and the directory is
recorded as it was listed. -/
def Recorded (looks : List (Look Name Dir File)) (now : Nat) (snapshot : PollerSnapshot Name Text) : Prop :=
  ∀ dir snap modified, snapshot.lookup dir = some snap → snap.dirModified = some modified →
    ∃ listing directory, lastListing looks dir = some listing ∧ listing.shown = .directory directory ∧
      listing.seenAt ≤ now ∧ modified + mtimeSettle < history.clock listing.seenAt ∧
      (history.disk listing.seenAt).Shows tests filters dir directory snap.files snap.subdirs

/-- A pass under way is right about what it has looked at, and what it has still to look at
waits. -/
structure Sound (before : List (Look Name Dir File)) (reported : Set (List Name)) (passStart : Int)
    (stage : Stage Name Text Dir File) : Prop where
  filed : Filed reported stage.walk
  started : passStart ≤ history.clock stage.now
  recorded : Recorded tests filters history (before ++ stage.looks) stage.now stage.walk.snapshot
  shown : ∀ look ∈ stage.looks, look.path ∈ stage.walk.visited ∧ ∃ directory snap,
    look.shown = .directory directory ∧ stage.walk.snapshot.lookup look.path = some snap ∧
      (history.disk look.seenAt).Shows tests filters look.path directory snap.files snap.subdirs
  looked : stage.walk.degraded = false → ∀ path ∈ stage.walk.visited, ∃ look ∈ stage.looks, look.path = path
  rooted : stage.walk.degraded = false → ∀ root ∈ filters.roots,
    isExcluded root filters.excludedRoots = false → root ∈ stage.walk.visited ∨ root ∈ stage.walk.stack
  descended : stage.walk.degraded = false → ∀ look ∈ stage.looks, ∀ snap,
    stage.walk.snapshot.lookup look.path = some snap → ∀ sub ∈ snap.subdirs,
      isExcluded (look.path ++ [sub]) filters.excludedRoots = false →
      look.path ++ [sub] ∈ stage.walk.visited ∨ look.path ++ [sub] ∈ stage.walk.stack

end

variable {history : History Name Dir File} {before looks : List (Look Name Dir File)} {now later : Nat}
  {rest : List (List Name)}

omit [DecidableEq Text] in
theorem recorded_later {snapshot : PollerSnapshot Name Text}
    (recorded : Recorded tests filters history looks now snapshot) (ordered : now ≤ later) :
    Recorded tests filters history looks later snapshot := by
  intro dir snap modified stored own
  obtain ⟨listing, directory, last, shown, seen, rest⟩ := recorded dir snap modified stored own
  exact ⟨listing, directory, last, shown, le_trans seen ordered, rest⟩

omit [DecidableEq Text] in
theorem Sound.failed (sound : Sound tests filters history before reported passStart ⟨walk, looks, now⟩)
    (dir : List Name) (rest : List (List Name)) (ordered : now ≤ later) :
    Sound tests filters history before reported passStart
      ⟨({ walk with stack := rest, visited := dir :: walk.visited } : PollWalk Name Text).fail dir, looks, later⟩ := by
  have kept : ∀ path, path ∈ walk.visited →
      path ∈ (({ walk with stack := rest, visited := dir :: walk.visited } : PollWalk Name Text).fail dir).visited :=
    fun path visited => visited_mark_subtree _ _ _ _ (List.mem_cons_of_mem _ visited)
  refine ⟨sound.filed.more_visited rfl rfl rfl kept, le_trans sound.started (history.monotone ordered),
    recorded_later sound.recorded ordered, fun look member => ?_, nofun, nofun, nofun⟩
  obtain ⟨visited, shown⟩ := sound.shown look member
  exact ⟨kept look.path visited, shown⟩

omit [DecidableEq Text] in
theorem Sound.passed_over (sound : Sound tests filters history before reported passStart ⟨walk, looks, now⟩)
    (taken : walk.stack.Perm (dir :: rest))
    (skips : isExcluded dir filters.excludedRoots = true ∨ dir ∈ walk.visited) :
    Sound tests filters history before reported passStart ⟨{ walk with stack := rest }, looks, now⟩ := by
  have waits : ∀ path, isExcluded path filters.excludedRoots = false →
      path ∈ walk.visited ∨ path ∈ walk.stack → path ∈ walk.visited ∨ path ∈ rest := by
    rintro path included (visited | waiting)
    · exact .inl visited
    · rcases List.mem_cons.mp (taken.mem_iff.mp waiting) with rfl | later
      · refine .inl (skips.resolve_left fun excluded => ?_)
        rw [included] at excluded
        cases excluded
      · exact .inr later
  exact ⟨sound.filed.more_visited rfl rfl rfl fun _ visited => visited, sound.started, sound.recorded,
    sound.shown, sound.looked,
    fun clean root member included => waits root included (sound.rooted clean root member included),
    fun clean look member snap stored sub below included =>
      waits _ included (sound.descended clean look member snap stored sub below included)⟩

omit [DecidableEq Name] in
/-- A directory that leaves the stack was waiting in it, and everything else still waits. -/
theorem waits_on {stack rest visited more : List (List Name)} (taken : stack.Perm (dir :: rest))
    (waits : path ∈ visited ∨ path ∈ stack) :
    path ∈ dir :: visited ∨ path ∈ more ++ rest := by
  rcases waits with visited_ | waiting
  · exact .inl (List.mem_cons_of_mem _ visited_)
  · rcases List.mem_cons.mp (taken.mem_iff.mp waiting) with rfl | later
    · exact .inl List.mem_cons_self
    · exact .inr (List.mem_append_right _ later)

omit [DecidableEq Text] in
theorem Sound.skipped (stamps : history.StampsEntries tests)
    (sound : Sound tests filters history before reported passStart ⟨walk, looks, now⟩)
    (taken : walk.stack.Perm (dir :: rest)) (ordered : now ≤ later) {found : Node Dir File}
    {snap : DirSnapshot Name Text} (stats : (history.disk later).Stats dir modified)
    (here : (history.disk later).find dir = some found) (stored : walk.snapshot.lookup dir = some snap)
    (recorded : snap.dirModified = some modified)
    (recognized : ∀ listing, lastListing (before ++ looks) dir = some listing → found = listing.shown) :
    Sound tests filters history before reported passStart
      ⟨({ walk with stack := rest, visited := dir :: walk.visited } : PollWalk Name Text).push dir snap.subdirs,
        looks ++ [⟨dir, true, modified, found, later⟩], later⟩ := by
  obtain ⟨listing, directory, last, shown, seen, settled, shows_⟩ :=
    sound.recorded dir snap modified stored recorded
  have isDirectory : found = .directory directory := (recognized listing last).trans shown
  subst isDirectory
  have same : modified = ((history.disk later).directories directory).modified := by
    rw [Disk.Stats, here] at stats
    exact stats
  have showsNow : (history.disk later).Shows tests filters dir directory snap.files snap.subdirs := by
    rw [same] at settled
    exact shows_later stamps (le_trans seen ordered) settled shows_
  refine ⟨sound.filed.more_visited rfl rfl rfl fun _ visited => List.mem_cons_of_mem _ visited,
    le_trans sound.started (history.monotone ordered), ?_, fun look member => ?_, fun clean path visited => ?_,
    fun clean root member included => waits_on taken (sound.rooted clean root member included),
    fun clean look member own found sub below included => ?_⟩
  · intro other otherSnap otherModified otherStored otherRecorded
    obtain ⟨listing, directory, last, shown, seen, rest⟩ :=
      sound.recorded other otherSnap otherModified otherStored otherRecorded
    refine ⟨listing, directory, ?_, shown, le_trans seen ordered, rest⟩
    rw [← List.append_assoc, last_listing_skipped (before ++ looks) rfl]
    exact last
  · rcases List.mem_append.mp member with old | new
    · obtain ⟨visited, shown⟩ := sound.shown look old
      exact ⟨List.mem_cons_of_mem _ visited, shown⟩
    · rw [List.mem_singleton] at new
      subst new
      exact ⟨List.mem_cons_self, directory, snap, rfl, stored, showsNow⟩
  · rcases List.mem_cons.mp visited with rfl | old
    · exact ⟨_, List.mem_append_right _ List.mem_cons_self, rfl⟩
    · obtain ⟨look, member, same⟩ := sound.looked clean path old
      exact ⟨look, List.mem_append_left _ member, same⟩
  · rcases List.mem_append.mp member with old | new
    · exact waits_on taken (sound.descended clean look old own found sub below included)
    · rw [List.mem_singleton] at new
      subst new
      have sameSnap : snap = own := Option.some.inj (stored.symm.trans found)
      subst sameSnap
      exact .inr (List.mem_append_left _ (List.mem_reverse.mpr (List.mem_map_of_mem below)))

theorem Sound.listed (sound : Sound tests filters history before reported passStart ⟨walk, looks, now⟩)
    (taken : walk.stack.Perm (dir :: rest)) (unvisited : dir ∉ walk.visited) (ordered : now ≤ later)
    (directory : Dir) : Sound tests filters history before reported passStart
      ⟨({ walk with stack := rest, visited := dir :: walk.visited } : PollWalk Name Text).enumerated passStart
          dir modified (enumerateDir tests filters dir ((history.disk later).entriesOf directory)),
        looks ++ [⟨dir, false, modified, .directory directory, later⟩], later⟩ := by
  have shows_ := @enumerate_shows Name Text Dir File _ tests filters dir (history.disk later) directory
  have started := le_trans sound.started (history.monotone ordered)
  have filed : Filed reported ({ walk with stack := rest } : PollWalk Name Text) :=
    sound.filed.more_visited rfl rfl rfl fun _ visited => visited
  have elsewhere : ∀ look ∈ looks, look.path ≠ dir := by
    intro look member same
    exact unvisited (same ▸ (sound.shown look member).1)
  refine ⟨filed.enumerated unvisited modified _, started, ?_, fun look member => ?_, fun clean path visited => ?_,
    fun clean root member included => waits_on taken (sound.rooted clean root member included),
    fun clean look member own found sub below included => ?_⟩
  · intro other snap recordedTime stored recorded
    have stored_ := (KeyedMap.lookup_insert_eq walk.snapshot dir other _).symm.trans stored
    rw [← List.append_assoc, last_listing_listed (before ++ looks) rfl]
    split at stored_
    · rename_i same
      subst same
      cases stored_
      simp only at recorded
      split at recorded
      · rename_i settled
        cases recorded
        refine ⟨_, directory, if_pos rfl, rfl, le_refl later, lt_of_lt_of_le settled started, shows_⟩
      · cases recorded
    · rename_i differs
      rw [if_neg differs]
      obtain ⟨listing, own, last, shown, seen, rest⟩ := sound.recorded other snap recordedTime stored_ recorded
      exact ⟨listing, own, last, shown, le_trans seen ordered, rest⟩
  · rcases List.mem_append.mp member with old | new
    · obtain ⟨visited, own, snap, shown, stored, rest⟩ := sound.shown look old
      refine ⟨List.mem_cons_of_mem _ visited, own, snap, shown, ?_, rest⟩
      exact (KeyedMap.lookup_insert_eq walk.snapshot dir look.path _).trans
        ((if_neg (elsewhere look old)).trans stored)
    · rw [List.mem_singleton] at new
      subst new
      exact ⟨List.mem_cons_self, directory, _, rfl, AList.lookup_insert _, shows_⟩
  · rcases List.mem_cons.mp visited with rfl | old
    · exact ⟨_, List.mem_append_right _ List.mem_cons_self, rfl⟩
    · obtain ⟨look, member, same⟩ := sound.looked clean path old
      exact ⟨look, List.mem_append_left _ member, same⟩
  · have found_ := (KeyedMap.lookup_insert_eq walk.snapshot dir look.path _).symm.trans found
    rcases List.mem_append.mp member with old | new
    · rw [if_neg (elsewhere look old)] at found_
      exact waits_on taken (sound.descended clean look old own found_ sub below included)
    · rw [List.mem_singleton] at new
      subst new
      rw [if_pos rfl] at found_
      cases found_
      exact .inr (List.mem_append_left _ (List.mem_reverse.mpr (List.mem_map_of_mem below)))

end Panoptikon.DirPoller
