import Panoptikon.DirPoller.LinkedTree

/-!
# Bounds on passes over a tree

Without a loop the watched paths of a finite tree are finitely many, and every
pass looks at some of them and at roots, each once. With a loop a pass that no
call fails looks at every watched path the limit on links allows.
-/

namespace Panoptikon.DirPoller

open Foundation Foundation.Walks

variable {Name Text Dir : Type} [DecidableEq Name]

namespace LinkedTree

variable {tree : LinkedTree Name Dir}

variable {limit : Nat}

variable {path : List Name}

variable {dir : Dir}

theorem locate_of_find (found : tree.find limit path = some dir) : tree.locate path = some dir := by
  unfold find at found
  split at found
  · exact found
  · exact absurd found.symm (Option.some_ne_none dir)

theorem links_append {dir middle : Dir} {first : List Name} (reaches : follow tree.step dir first = some middle)
    (second : List Name) : tree.links dir (first ++ second) = tree.links dir first + tree.links middle second := by
  induction first generalizing dir with
  | nil =>
    cases reaches
    exact (Nat.zero_add _).symm
  | cons name rest ih =>
    rw [follow_cons] at reaches
    obtain ⟨next, isNext, later⟩ := Option.bind_eq_some_iff.mp reaches
    obtain ⟨found, isFound, rfl⟩ := Option.map_eq_some_iff.mp isNext
    rw [List.cons_append, links, links, isFound]
    dsimp only
    rw [ih later, Nat.add_assoc]

theorem find_of_append {first second : List Name}
    (found : tree.find limit (first ++ second) = some dir) : ∃ above, tree.find limit first = some above := by
  have whole := locate_of_find found
  obtain ⟨above, isAbove, -⟩ := follow_of_append tree.step whole
  have counted := links_append isAbove second
  unfold find at found
  split at found
  · refine ⟨above, ?_⟩
    unfold find
    rw [if_pos (by omega)]
    exact isAbove
  · exact absurd found.symm (Option.some_ne_none dir)

theorem find_within (located : tree.locate path = some dir)
    (enough : tree.links tree.top path ≤ limit) : tree.find limit path = some dir := by
  rw [find, if_pos enough, located]

section Bounded

variable [DecidableEq Text] {tests : FileTests Name Text} {filters : PollFilters Name} {limit : Nat}
  {passStart : Int} {snapshot : PollerSnapshot Name Text} {survey : Survey Name Text}
  {rows : List (List Name × Text)}

omit [DecidableEq Name] in
theorem TreeTurn.turn [DecidableEq Name] {tree : LinkedTree Name Dir} {survey after : Survey Name Text}
    (turn : tree.TreeTurn tests filters limit passStart survey after) : Turn tests filters passStart survey after := by
  cases turn with
  | look dir rest answer taken _ => exact .look dir rest answer taken

theorem passing_turns (passing : tree.Passing tests filters limit passStart snapshot survey) :
    Relation.ReflTransGen (Turn tests filters passStart) ⟨PollWalk.start filters snapshot, []⟩ survey := by
  induction passing with
  | refl => exact .refl
  | tail _ turn ih => exact ih.tail turn.turn

/-- The watched paths of the tree, whatever links they follow. -/
def watchedPaths (tree : LinkedTree Name Dir) (tests : FileTests Name Text) (filters : PollFilters Name) :
    Set (List Name) :=
  {path | Watched tests filters path ∧ ∃ dir, tree.locate path = some dir}

/-- Subdirectories are recorded where the tree has them, each once. -/
structure RecordsTree (tree : LinkedTree Name Dir) (tests : FileTests Name Text)
    (snapshot : PollerSnapshot Name Text) : Prop where
  subdirs : ∀ dir sub, RecordedSubdir snapshot dir sub →
    tests.isJunkDirName sub = false ∧ ∃ child, tree.locate (dir ++ [sub]) = some child
  once : ∀ dir snap, snapshot.lookup dir = some snap → snap.subdirs.Nodup

omit [DecidableEq Text] in
theorem nodup_listed (dir : List Name) (entries : List (DirEntry Name)) :
    (listed tests filters dir entries : DirListing Name Text).subdirs.Nodup := by
  have fold (entries : List (Name × Metadata)) (listing : DirListing Name Text) (distinct : listing.subdirs.Nodup) :
      (entries.foldl (fun listing entry => listing.add tests filters dir entry.1 entry.2) listing).subdirs.Nodup := by
    induction entries generalizing listing with
    | nil => exact distinct
    | cons entry rest ih =>
      rw [List.foldl_cons]
      apply ih
      cases entry.2 with
      | directory =>
        rw [DirListing.add]
        split
        · exact distinct
        · exact distinct.insert
      | other => exact distinct
      | file modified len =>
        rw [DirListing.add]
        split
        · exact distinct
        · split
          · exact distinct
          · exact distinct
  exact fold _ _ List.nodup_nil

/-- What waits and what was looked at is a root or in the tree; nothing is
looked at twice. -/
structure InTree (tree : LinkedTree Name Dir) (tests : FileTests Name Text) (filters : PollFilters Name)
    (survey : Survey Name Text) : Prop where
  stack : ∀ dir ∈ survey.walk.stack, dir ∈ filters.roots ∨ ∃ found, tree.locate dir = some found
  log : ∀ dir outcome, (dir, outcome) ∈ survey.log → dir ∈ filters.roots ∨ ∃ found, tree.locate dir = some found
  enumerated : ∀ dir entries, (dir, .listed entries) ∈ survey.log → ∃ found, tree.locate dir = some found
  records : RecordsTree tree tests survey.walk.snapshot
  distinct : (survey.log.map Prod.fst).Nodup

theorem InTree.look (inTree : InTree tree tests filters survey)
    (logged : ∀ dir outcome, (dir, outcome) ∈ survey.log → dir ∈ survey.walk.visited) {dir : List Name}
    {rest : List (List Name)} {answer : Answer Name} (taken : survey.walk.stack.Perm (dir :: rest))
    (shows : tree.Shows limit dir answer) :
    InTree tree tests filters (survey.look tests filters passStart dir rest answer) := by
  have here := inTree.stack dir (taken.mem_iff.mpr List.mem_cons_self)
  have waits : ∀ other ∈ rest, other ∈ filters.roots ∨ ∃ found, tree.locate other = some found := by
    intro other waiting
    exact inTree.stack other (taken.mem_iff.mpr (List.mem_cons_of_mem _ waiting))
  have pushed {subs : List Name} (present : ∀ sub ∈ subs, ∃ found, tree.locate (dir ++ [sub]) = some found) :
      ∀ other ∈ (subs.map fun sub => dir ++ [sub]).reverse ++ rest,
        other ∈ filters.roots ∨ ∃ found, tree.locate other = some found := by
    intro other waiting
    rcases List.mem_append.mp waiting with child | earlier
    · rw [List.mem_reverse, List.mem_map] at child
      obtain ⟨sub, member, rfl⟩ := child
      exact .inr (present sub member)
    · exact waits other earlier
  rcases look_cases survey dir rest answer with ⟨-, looked⟩ | ⟨-, unvisited, looked⟩
  · rw [looked]
    exact ⟨waits, inTree.log, inTree.enumerated, inTree.records, inTree.distinct⟩
  · have log (result : Outcome Name) : ∀ other outcome, (other, outcome) ∈ survey.log ++ [(dir, result)] →
        other ∈ filters.roots ∨ ∃ found, tree.locate other = some found := by
      intro other outcome member
      rcases List.mem_append.mp member with before | last
      · exact inTree.log other outcome before
      · cases List.mem_singleton.mp last
        exact here
    have distinct (result : Outcome Name) : ((survey.log ++ [(dir, result)]).map Prod.fst).Nodup := by
      rw [List.map_append, List.map_cons, List.map_nil]
      rw [← List.concat_eq_append]
      apply List.Nodup.concat _ inTree.distinct
      intro member
      obtain ⟨⟨other, outcome⟩, isLogged, rfl⟩ := List.mem_map.mp member
      exact unvisited (logged other outcome isLogged)
    have listedBefore {result : Outcome Name} (unlisted : ∀ entries, result ≠ .listed entries) :
        ∀ other entries, (other, .listed entries) ∈ survey.log ++ [(dir, result)] →
          ∃ found, tree.locate other = some found := by
      intro other entries member
      rcases List.mem_append.mp member with before | last
      · exact inTree.enumerated other entries before
      · rw [List.mem_singleton, Prod.mk.injEq] at last
        exact absurd last.2.symm (unlisted entries)
    rcases looked with ⟨-, looked⟩ | ⟨snap, stored, looked⟩ | ⟨modified, entries, isStat, isEntries, looked⟩
    · rw [looked]
      exact ⟨waits, log _, listedBefore (fun entries same => by cases same), inTree.records, distinct _⟩
    · rw [looked]
      refine ⟨pushed ?_, log _, listedBefore (fun entries same => by cases same), inTree.records, distinct _⟩
      intro sub member
      exact (inTree.records.subdirs dir sub ⟨snap, stored, member⟩).2
    · have present : ∀ sub ∈ (listed tests filters dir entries : DirListing Name Text).subdirs,
          ∃ found, tree.locate (dir ++ [sub]) = some found := by
        intro sub member
        rcases (mem_subdirs_fold dir _ _ sub).mp member with none_ | ⟨isEntry, -⟩
        · cases none_
        · obtain ⟨entry, isMember, same⟩ := List.mem_map.mp isEntry
          rw [DirEntry.shown, Prod.mk.injEq] at same
          obtain ⟨found, isFound⟩ := shows.listing entries isEntries entry isMember same.2
          rw [same.1] at isFound
          exact ⟨found, locate_of_find isFound⟩
      rw [looked]
      refine ⟨pushed present, log _, ?_, ⟨?_, ?_⟩, distinct _⟩
      · intro other found member
        rcases List.mem_append.mp member with before | last
        · exact inTree.enumerated other found before
        · rw [List.mem_singleton, Prod.mk.injEq] at last
          obtain ⟨here, isHere⟩ := shows.stat modified isStat
          rw [last.1]
          exact ⟨here, locate_of_find isHere⟩
      · rintro other sub ⟨snap, stored, member⟩
        change (survey.walk.snapshot.insert dir _).lookup other = some snap at stored
        rw [KeyedMap.lookup_insert_eq] at stored
        split at stored
        · rename_i same
          cases stored
          rw [same]
          exact ⟨listed_wanted member, present sub member⟩
        · exact inTree.records.subdirs other sub ⟨snap, stored, member⟩
      · intro other snap stored
        change (survey.walk.snapshot.insert dir _).lookup other = some snap at stored
        rw [KeyedMap.lookup_insert_eq] at stored
        split at stored
        · cases stored
          exact nodup_listed dir entries
        · exact inTree.records.once other snap stored

theorem passing_in_tree (records : RecordsTree tree tests snapshot)
    (passing : tree.Passing tests filters limit passStart snapshot survey) : InTree tree tests filters survey := by
  induction passing with
  | refl =>
    refine ⟨fun dir isRoot => .inl isRoot, ?_, ?_, records, List.nodup_nil⟩
    · exact nofun
    · exact nofun
  | tail before turn ih =>
    cases turn with
    | look dir rest answer taken shows =>
      have accounted := turns_accounted (passing_turns before)
      exact ih.look accounted.logged taken shows

/-- A root or an excluded root is no longer than this. -/
def lead (filters : PollFilters Name) : Nat := ((filters.roots ++ filters.excludedRoots).map List.length).sum

omit [DecidableEq Name] in
theorem length_le_lead (member : path ∈ filters.roots ++ filters.excludedRoots) : path.length ≤ lead filters :=
  List.le_sum_of_mem (List.mem_map_of_mem member)

omit [DecidableEq Text] in
/-- Beyond the roots and the excluded roots a long watched path has a loop. -/
theorem loops_of_long [Finite Dir] (watched : path ∈ watchedPaths tree tests filters)
    (long : lead filters + Nat.card Dir ≤ path.length) : tree.Loops tests filters := by
  obtain ⟨⟨included, root, isRoot, below, whole, wanted⟩, last, located⟩ := watched
  obtain ⟨before, loop, after, dir, split, nonempty, isLong, arrives, loops⟩ :=
    exists_loop tree.step located (lead filters) long
  have beforeStarts : before <+: path := ⟨loop ++ after, by rw [split, List.append_assoc]⟩
  have rootShort : root.length ≤ before.length :=
    Nat.le_trans (length_le_lead (List.mem_append_left _ isRoot)) isLong
  obtain ⟨between, isBetween⟩ : root <+: before :=
    List.prefix_of_prefix_length_le ⟨below, whole.symm⟩ beforeStarts rootShort
  have belowIs : below = between ++ loop ++ after := by
    rw [whole, ← isBetween, List.append_assoc, List.append_assoc] at split
    rw [List.append_assoc]
    exact List.append_cancel_left split
  refine ⟨before, loop, dir, nonempty, ⟨root, isRoot, between, isBetween.symm, ?_⟩, ?_, arrives, loops, ?_⟩
  · intro name member
    exact wanted name (by rw [belowIs]; simp [member])
  · intro name member
    exact wanted name (by rw [belowIs]; simp [member])
  · intro rounds
    rw [Bool.eq_false_iff]
    intro excluded
    -- An excluded root is too short to reach into the rounds.
    rw [isExcluded, List.any_eq_true] at excluded
    obtain ⟨outer, isOuter, starts⟩ := excluded
    have outerShort : outer.length ≤ before.length :=
      Nat.le_trans (length_le_lead (List.mem_append_right _ isOuter)) isLong
    have outerAbove : outer <+: path := by
      apply List.IsPrefix.trans _ beforeStarts
      exact List.prefix_of_prefix_length_le (List.isPrefixOf_iff_prefix.mp starts) (List.prefix_append _ _) outerShort
    have excludedWhole : isExcluded path filters.excludedRoots = true := by
      rw [isExcluded, List.any_eq_true]
      exact ⟨outer, isOuter, List.isPrefixOf_iff_prefix.mpr outerAbove⟩
    rw [included] at excludedWhole
    exact Bool.false_ne_true excludedWhole

theorem names_finite [Finite Dir] (tree : LinkedTree Name Dir) :
    {name | ∃ dir, name ∈ tree.entries dir}.Finite := by
  have each : {name | ∃ dir, name ∈ tree.entries dir} = ⋃ dir, {name | name ∈ (tree.entries dir).keys} := by
    ext name
    simp [AList.mem_keys]
  rw [each]
  exact Set.finite_iUnion fun dir => List.finite_toSet _

omit [DecidableEq Text] in
theorem watched_paths_finite [Finite Dir] (noLoop : ¬tree.Loops tests filters) :
    (watchedPaths tree tests filters).Finite := by
  have labelled : ∀ dir name next, tree.step dir name = some next → name ∈ {name | ∃ dir, name ∈ tree.entries dir} := by
    intro dir name next steps
    obtain ⟨found, isFound, -⟩ := Option.map_eq_some_iff.mp steps
    obtain ⟨entry, stored, -⟩ := Option.bind_eq_some_iff.mp isFound
    exact ⟨dir, AList.lookup_isSome.mp (by rw [stored]; rfl)⟩
  apply (finite_walks tree.step (names_finite tree) labelled tree.top (lead filters + Nat.card Dir)).subset
  intro path watched
  refine ⟨watched.2, ?_⟩
  by_contra long
  exact noLoop (loops_of_long watched (by omega))

omit [DecidableEq Text] in
theorem seed_recorded (rows : List (List Name × Text)) {dir : List Name} {snap : DirSnapshot Name Text}
    (stored : (seedSnapshot tests filters rows).lookup dir = some snap) :
    snap.subdirs = [] ∧ dir ∈ rows.map fun row => row.1.dropLast := by
  have fold (rows : List (List Name × Text)) (snapshot : PollerSnapshot Name Text) (dirs : List (List Name))
      (before : ∀ dir snap, snapshot.lookup dir = some snap → snap.subdirs = [] ∧ dir ∈ dirs) :
      ∀ dir snap, (rows.foldl (fun snapshot row =>
          if isSeeded tests filters row.1 then seedRow snapshot row.1 row.2 else snapshot) snapshot).lookup dir =
        some snap → snap.subdirs = [] ∧ dir ∈ dirs ++ rows.map fun row => row.1.dropLast := by
    induction rows generalizing snapshot dirs with
    | nil =>
      intro dir snap stored
      rw [List.map_nil, List.append_nil]
      exact before dir snap stored
    | cons row rows ih =>
      rw [List.foldl_cons, List.map_cons, ← List.singleton_append, ← List.append_assoc]
      apply ih
      intro dir snap stored
      have earlier (stored : snapshot.lookup dir = some snap) :
          snap.subdirs = [] ∧ dir ∈ dirs ++ [row.1.dropLast] :=
        ⟨(before dir snap stored).1, List.mem_append_left _ (before dir snap stored).2⟩
      split at stored
      · rw [seedRow] at stored
        split at stored
        · exact earlier stored
        · rw [KeyedMap.lookup_insert_eq] at stored
          split at stored
          · rename_i same
            cases stored
            refine ⟨?_, by rw [same]; simp⟩
            cases old : snapshot.lookup row.1.dropLast with
            | none => rfl
            | some own => exact (before _ own old).1
          · exact earlier stored
      · exact earlier stored
  have empty : ∀ dir snap, (∅ : PollerSnapshot Name Text).lookup dir = some snap → snap.subdirs = [] ∧
      dir ∈ ([] : List (List Name)) := by
    intro dir snap stored
    cases stored
  have found := fold rows ∅ [] empty dir snap stored
  rwa [List.nil_append] at found

/-- A snapshot records subdirectories of the tree, at seeded directories and at
watched paths. -/
theorem polled_records (polled : tree.Polled tests filters limit rows snapshot) :
    RecordsTree tree tests snapshot ∧ ∀ dir snap, snapshot.lookup dir = some snap →
      dir ∈ (rows.map fun row => row.1.dropLast) ∨ dir ∈ watchedPaths tree tests filters := by
  induction polled with
  | seed =>
    refine ⟨⟨?_, ?_⟩, ?_⟩
    · rintro dir sub ⟨snap, stored, member⟩
      rw [(seed_recorded rows stored).1] at member
      cases member
    · intro dir snap stored
      rw [(seed_recorded rows stored).1]
      exact List.nodup_nil
    · intro dir snap stored
      exact .inl (seed_recorded rows stored).2
  | @pass snapshot survey polled passStart passing emptied ih =>
    obtain ⟨records, dirs⟩ := ih
    have turns := passing_turns passing
    have accounted := turns_accounted turns
    have onWatch := turns_on_watch (fun dir sub recorded => (records.subdirs dir sub recorded).1) turns
    have inTree := passing_in_tree records passing
    refine ⟨⟨?_, ?_⟩, ?_⟩
    · rintro dir sub ⟨snap, stored, member⟩
      exact inTree.records.subdirs dir sub ⟨snap, (lookup_finish survey.walk stored).1, member⟩
    · intro dir snap stored
      exact inTree.records.once dir snap (lookup_finish survey.walk stored).1
    · intro dir snap stored
      have before := (lookup_finish survey.walk stored).1
      by_cases isListed : ∃ entries, (dir, .listed entries) ∈ survey.log
      · obtain ⟨entries, logged⟩ := isListed
        exact .inr ⟨onWatch.log dir _ logged, inTree.enumerated dir entries logged⟩
      · rw [not_exists] at isListed
        rw [accounted.kept dir isListed] at before
        exact dirs dir snap before

/-- Neither path is above the other. -/
def Apart (first second : List Name) : Prop := ¬first <+: second ∧ ¬second <+: first

omit [DecidableEq Text] in
/-- Paths apart from each other are marked in no more steps than there are
subdirectories left below them. -/
theorem mark_subtree_ends (once : ∀ dir snap, snapshot.lookup dir = some snap → snap.subdirs.Nodup) (more : Nat)
    (fuel : Nat) : ∀ (stack visited : List (List Name)) (left : PollerSnapshot Name Text),
      stack.Pairwise Apart →
      (∀ dir snap, snapshot.lookup dir = some snap → (∃ top ∈ stack, top <+: dir) → left.lookup dir = some snap) →
      stack.length + left.weight (fun dir => dir.subdirs.length) ≤ fuel →
      markSubtree snapshot (fuel + more) stack visited = markSubtree snapshot fuel stack visited := by
  induction fuel with
  | zero =>
    intro stack visited left _ _ enough
    obtain rfl := List.length_eq_zero_iff.mp (Nat.eq_zero_of_add_eq_zero_right (Nat.le_zero.mp enough))
    rw [Nat.zero_add]
    cases more <;> rfl
  | succ fuel ih =>
    intro stack visited left apart remains enough
    rw [Nat.add_right_comm]
    cases stack with
    | nil => rfl
    | cons current rest =>
      rw [List.pairwise_cons] at apart
      rw [List.length_cons] at enough
      have below {dir : List Name} (under : ∃ top ∈ rest, top <+: dir) : dir ≠ current := by
        rintro rfl
        obtain ⟨top, member, above⟩ := under
        exact (apart.1 top member).2 above
      rw [markSubtree, markSubtree]
      cases stored : snapshot.lookup current with
      | none =>
        apply ih rest _ left apart.2
        · rintro dir snap isStored ⟨top, member, above⟩
          exact remains dir snap isStored ⟨top, List.mem_cons_of_mem _ member, above⟩
        · omega
      | some snap =>
        have spent := KeyedMap.weight_erase (fun dir : DirSnapshot Name Text => dir.subdirs.length)
          (remains current snap stored ⟨current, List.mem_cons_self, List.prefix_refl _⟩)
        dsimp only
        have isChild {child : List Name}
            (member : child ∈ ((snap.subdirs.map fun sub => current ++ [sub]).filter (· ∉ visited)).reverse) :
            ∃ sub, child = current ++ [sub] := by
          obtain ⟨sub, -, rfl⟩ := List.mem_map.mp (List.mem_of_mem_filter (List.mem_reverse.mp member))
          exact ⟨sub, rfl⟩
        apply ih _ _ (left.erase current)
        · rw [List.pairwise_append]
          refine ⟨?_, apart.2, ?_⟩
          · -- Children of one directory are as long as each other and differ.
            have distinct : ((snap.subdirs.map fun sub => current ++ [sub]).filter
                (· ∉ visited)).reverse.Nodup := by
              apply List.nodup_reverse.mpr
              apply List.Nodup.filter
              apply (once current snap stored).map
              intro first second same
              exact (List.cons.inj (List.append_cancel_left same)).1
            apply distinct.imp_of_mem
            intro first second isFirst isSecond differ
            obtain ⟨_, rfl⟩ := isChild isFirst
            obtain ⟨_, rfl⟩ := isChild isSecond
            constructor
            · intro above
              exact differ (above.eq_of_length (by rw [List.length_append, List.length_append]; rfl))
            · intro above
              exact differ (above.eq_of_length (by rw [List.length_append, List.length_append]; rfl)).symm
          · intro child member other isOther
            obtain ⟨sub, rfl⟩ := isChild member
            have away := apart.1 other isOther
            constructor
            · intro above
              exact away.1 ((List.prefix_append current [sub]).trans above)
            · intro above
              rcases List.prefix_concat_iff.mp above with rfl | higher
              · exact away.1 (List.prefix_append current [sub])
              · exact away.2 higher
        · rintro dir own isStored ⟨top, member, above⟩
          rw [KeyedMap.lookup_erase_eq]
          rcases List.mem_append.mp member with isBelow | isRest
          · obtain ⟨sub, rfl⟩ := isChild isBelow
            have longer := above.length_le
            rw [List.length_append, List.length_singleton] at longer
            rw [if_neg (by rintro rfl; omega)]
            exact remains dir own isStored
              ⟨current, List.mem_cons_self, (List.prefix_append current [sub]).trans above⟩
          · rw [if_neg (below ⟨top, isRest, above⟩)]
            exact remains dir own isStored ⟨top, List.mem_cons_of_mem _ isRest, above⟩
        · have few : ((snap.subdirs.map fun sub => current ++ [sub]).filter (· ∉ visited)).length ≤
              snap.subdirs.length := by
            have filtered := List.length_filter_le (fun path => decide (path ∉ visited))
              (snap.subdirs.map fun sub => current ++ [sub])
            rwa [List.length_map] at filtered
          rw [List.length_append, List.length_reverse]
          omega

/-- At any time of any run, `mark_subtree_visited` comes to an end. -/
theorem marking_ends (polled : tree.Polled tests filters limit rows snapshot)
    (passing : tree.Passing tests filters limit passStart snapshot survey) (dir : List Name)
    (visited : List (List Name)) (more : Nat) :
    markSubtree survey.walk.snapshot (survey.walk.snapshot.weight (fun dir => dir.subdirs.length) + 1 + more) [dir]
      visited = markSubtreeVisited survey.walk.snapshot dir visited := by
  have inTree := passing_in_tree (polled_records polled).1 passing
  apply mark_subtree_ends inTree.records.once more _ [dir] visited survey.walk.snapshot
  · exact List.pairwise_singleton _ _
  · exact fun _ _ stored _ => stored
  · rw [List.length_singleton, Nat.add_comm]

theorem turn_measure {after : Survey Name Text} (turn : tree.TreeTurn tests filters limit passStart survey after) :
    after.log.length = survey.log.length + 1 ∨
      after.log = survey.log ∧ after.walk.stack.length + 1 = survey.walk.stack.length := by
  cases turn with
  | look dir rest answer taken shows =>
    rcases look_cases survey dir rest answer with ⟨-, looked⟩ |
      ⟨-, -, ⟨-, looked⟩ | ⟨_, -, looked⟩ | ⟨_, _, -, -, looked⟩⟩
    · rw [looked, taken.length_eq]
      exact .inr ⟨rfl, rfl⟩
    · rw [looked]
      exact .inl List.length_append
    · rw [looked]
      exact .inl List.length_append
    · rw [looked]
      exact .inl List.length_append

/-- Surveys of bounded length do not go on for ever: when no directory is logged
any more the stack runs out. -/
theorem turns_stop (turns : Nat → Survey Name Text) {bound : Nat}
    (bounded : ∀ turn, (turns turn).log.length ≤ bound) :
    ∃ turn, ¬tree.TreeTurn tests filters limit passStart (turns turn) (turns (turn + 1)) := by
  obtain ⟨turn, noLess⟩ := WellFounded.not_rel_apply_succ (r := (· < ·)) fun turn =>
    toLex (bound - (turns turn).log.length, (turns turn).walk.stack.length)
  refine ⟨turn, fun steps => noLess ?_⟩
  rw [Prod.Lex.toLex_lt_toLex]
  have fits := bounded (turn + 1)
  rcases turn_measure steps with grows | ⟨same, shorter⟩
  · apply Or.inl
    dsimp only
    omega
  · apply Or.inr
    dsimp only
    rw [same]
    exact ⟨rfl, by omega⟩

/-- Without a loop the watched paths of the tree and the roots are all a pass
looks at. -/
theorem bounded_of_no_loop [Finite Dir] (noLoop : ¬tree.Loops tests filters) :
    tree.BoundedByTree tests filters := by
  have finite := watched_paths_finite noLoop
  refine ⟨finite.toFinset.card + filters.roots.length, fun limit rows snapshot polled => ?_⟩
  obtain ⟨records, dirs⟩ := polled_records polled
  have logBounded (passStart : Int) (survey : Survey Name Text)
      (passing : tree.Passing tests filters limit passStart snapshot survey) :
      survey.log.length ≤ finite.toFinset.card + filters.roots.length := by
    have inTree := passing_in_tree records passing
    have onWatch := turns_on_watch (fun dir sub recorded => (records.subdirs dir sub recorded).1) (passing_turns passing)
    have inside : survey.log.map Prod.fst ⊆ finite.toFinset.toList ++ filters.roots := by
      intro dir member
      obtain ⟨⟨other, result⟩, logged, rfl⟩ := List.mem_map.mp member
      rw [List.mem_append, Finset.mem_toList, Set.Finite.mem_toFinset]
      rcases inTree.log other result logged with isRoot | located
      · exact .inr isRoot
      · exact .inl ⟨onWatch.log other result logged, located⟩
    have short := (List.subperm_of_subset inTree.distinct inside).length_le
    rwa [List.length_map, List.length_append, Finset.length_toList] at short
  refine ⟨?_, logBounded, ?_⟩
  · have inside : snapshot.keys ⊆ (rows.map fun row => row.1.dropLast) ++ finite.toFinset.toList := by
      intro dir member
      rw [List.mem_append, Finset.mem_toList, Set.Finite.mem_toFinset]
      obtain ⟨snap, stored⟩ := Option.isSome_iff_exists.mp (AList.lookup_isSome.mpr (AList.mem_keys.mpr member))
      exact dirs dir snap stored
    have short : snapshot.keys.length ≤ _ := (List.subperm_of_subset snapshot.nodupKeys inside).length_le
    rw [List.length_append, List.length_map, Finset.length_toList] at short
    omega
  · intro passStart turns starts
    by_contra endless
    push Not at endless
    have passing (turn : Nat) : tree.Passing tests filters limit passStart snapshot (turns turn) := by
      induction turn with
      | zero =>
        rw [starts]
        exact .refl
      | succ turn ih => exact ih.tail (endless turn)
    obtain ⟨turn, stops⟩ := turns_stop turns fun turn => logBounded passStart (turns turn) (passing turn)
    exact stops (endless turn)

/-- What an entry of the directory at a path answers when no call fails. -/
def inspected (tree : LinkedTree Name Dir) (limit : Nat) (path : List Name) (name : Name)
    (entry : TreeEntry Dir) : DirEntry Name :=
  let found : Stat := if (tree.find limit (path ++ [name])).isSome then .directory else .other
  match entry with
  | .link _ _ => ⟨name, some true, some found, none⟩
  | _ => ⟨name, some false, none, some found⟩

/-- A listing in which no call fails. -/
def inspectedAll (tree : LinkedTree Name Dir) (limit : Nat) (path : List Name) (dir : Dir) : List (DirEntry Name) :=
  (tree.entries dir).entries.map fun entry => tree.inspected limit path entry.1 entry.2

/-- The answers at a path when no call fails that can succeed. -/
def answers (tree : LinkedTree Name Dir) (limit : Nat) (path : List Name) : Answer Name :=
  match tree.find limit path with
  | none => ⟨none, none⟩
  | some dir => ⟨some 0, some ((tree.inspectedAll limit path dir).map some)⟩

theorem inspected_shown (path : List Name) (name : Name) (entry : TreeEntry Dir) :
    (tree.inspected limit path name entry).shown =
      (name, if (tree.find limit (path ++ [name])).isSome then .directory else .other) := by
  cases below : tree.find limit (path ++ [name]) with
  | none | some => cases entry <;> simp [inspected, below, DirEntry.shown, DirEntry.found, DirEntry.metadata]

theorem entries_answers (found : tree.find limit path = some dir) : (tree.answers limit path).stat = some 0 ∧
      (tree.answers limit path).entries = some (tree.inspectedAll limit path dir) := by
  rw [answers, found]
  refine ⟨rfl, ?_⟩
  rw [Answer.entries, Option.bind_some, List.mapM_map]
  exact List.mapM_pure.trans (congrArg some (List.map_id _))

theorem answers_show (path : List Name) : tree.Shows limit path (tree.answers limit path) := by
  cases found : tree.find limit path with
  | none =>
    have silent : tree.answers limit path = ⟨none, none⟩ := by rw [answers, found]
    rw [silent]
    exact ⟨fun _ absent => absurd absent.symm (Option.some_ne_none _),
      fun _ absent => absurd absent.symm (Option.some_ne_none _)⟩
  | some dir =>
    obtain ⟨-, isListing⟩ := entries_answers found
    refine ⟨fun _ _ => ⟨dir, found⟩, fun entries isEntries entry member isDirectory => ?_⟩
    rw [isListing, Option.some.injEq] at isEntries
    subst isEntries
    obtain ⟨⟨name, own⟩, -, rfl⟩ := List.mem_map.mp member
    have shown : (tree.inspected limit path name own).shown = _ := inspected_shown path name own
    rw [DirEntry.shown, Prod.mk.injEq] at shown
    rw [shown.1]
    rw [shown.2] at isDirectory
    cases below : tree.find limit (path ++ [name]) with
    | none =>
      rw [below] at isDirectory
      exact absurd isDirectory (by simp)
    | some sub => exact ⟨sub, rfl⟩

/-- A turn of a pass in which no call fails that can succeed. -/
def calmTurn (tree : LinkedTree Name Dir) (tests : FileTests Name Text) (filters : PollFilters Name) (limit : Nat)
    (passStart : Int) (survey : Survey Name Text) : Survey Name Text :=
  match survey.walk.stack with
  | [] => survey
  | dir :: rest => survey.look tests filters passStart dir rest (tree.answers limit dir)

def calmTurns (tree : LinkedTree Name Dir) (tests : FileTests Name Text) (filters : PollFilters Name) (limit : Nat)
    (passStart : Int) (turn : Nat) : Survey Name Text :=
  (tree.calmTurn tests filters limit passStart)^[turn] ⟨PollWalk.start filters ∅, []⟩

/-- What has been visited was logged, and what can be listed was listed. -/
structure Calm (tree : LinkedTree Name Dir) (limit : Nat) (survey : Survey Name Text) : Prop where
  visited : ∀ dir ∈ survey.walk.visited, ∃ result, (dir, result) ∈ survey.log
  found : ∀ dir result found, (dir, result) ∈ survey.log → tree.find limit dir = some found →
    result = .listed (tree.inspectedAll limit dir found)

omit [DecidableEq Text] in
theorem mark_unrecorded {dir : List Name} (unrecorded : snapshot.lookup dir = none) (visited : List (List Name)) :
    markSubtreeVisited snapshot dir visited = dir :: visited := by
  rw [markSubtreeVisited, markSubtree, unrecorded]
  cases snapshot.weight fun dir => dir.subdirs.length <;> rfl

theorem Calm.look (calm : Calm tree limit survey) (accounted : Accounted tests filters ∅ survey) (dir : List Name)
    (rest : List (List Name)) :
    Calm tree limit (survey.look tests filters passStart dir rest (tree.answers limit dir)) := by
  rcases look_cases survey dir rest (tree.answers limit dir) with ⟨-, looked⟩ | ⟨-, unvisited, looked⟩
  · rw [looked]
    exact ⟨calm.visited, calm.found⟩
  · have unrecorded : survey.walk.snapshot.lookup dir = none := by
      rw [accounted.kept dir fun entries logged => unvisited (accounted.logged dir _ logged)]
      rfl
    have visited (result : Outcome Name) : ∀ other ∈ dir :: survey.walk.visited,
        ∃ outcome, (other, outcome) ∈ survey.log ++ [(dir, result)] := by
      intro other member
      rcases List.mem_cons.mp member with rfl | before
      · exact ⟨result, List.mem_append_right _ (List.mem_singleton.mpr rfl)⟩
      · obtain ⟨outcome, logged⟩ := calm.visited other before
        exact ⟨outcome, List.mem_append_left _ logged⟩
    have found {result : Outcome Name}
        (here : ∀ found, tree.find limit dir = some found → result = .listed (tree.inspectedAll limit dir found)) :
        ∀ other outcome found, (other, outcome) ∈ survey.log ++ [(dir, result)] →
          tree.find limit other = some found → outcome = .listed (tree.inspectedAll limit other found) := by
      intro other outcome found logged isFound
      rcases List.mem_append.mp logged with before | last
      · exact calm.found other outcome found before isFound
      · rw [List.mem_singleton, Prod.mk.injEq] at last
        rw [last.1] at isFound ⊢
        rw [last.2]
        exact here found isFound
    rcases looked with ⟨failed, looked⟩ | ⟨snap, stored, -⟩ | ⟨modified, entries, -, isEntries, looked⟩
    · rw [looked]
      refine ⟨?_, found fun here isFound => ?_⟩
      · have more : ((survey.walk.opened dir rest).fail dir).visited = dir :: dir :: survey.walk.visited :=
          mark_unrecorded unrecorded _
        rw [more]
        intro other member
        rcases List.mem_cons.mp member with rfl | before
        · exact visited .failed other List.mem_cons_self
        · exact visited .failed other before
      · obtain ⟨isStat, isListing⟩ := entries_answers isFound
        rw [isStat, isListing] at failed
        rcases failed with absent | absent
        · exact absurd absent (Option.some_ne_none _)
        · exact absurd absent (Option.some_ne_none _)
    · rw [unrecorded] at stored
      exact absurd stored.symm (Option.some_ne_none snap)
    · rw [looked]
      refine ⟨visited _, found fun here isFound => ?_⟩
      rw [(entries_answers isFound).2, Option.some.injEq] at isEntries
      rw [isEntries]

theorem calm_turns_pass (turn : Nat) :
    tree.Passing tests filters limit passStart ∅ (tree.calmTurns tests filters limit passStart turn) ∧
      Calm tree limit (tree.calmTurns tests filters limit passStart turn) := by
  induction turn with
  | zero =>
    refine ⟨.refl, nofun, fun _ _ _ absent => ?_⟩
    cases absent
  | succ turn ih =>
    rw [calmTurns, Function.iterate_succ_apply', ← calmTurns, calmTurn]
    split
    · exact ih
    · rename_i dir rest taken
      refine ⟨ih.1.tail (.look dir rest _ ?_ (answers_show dir)), ih.2.look ?_ dir rest⟩
      · rw [taken]
      · exact turns_accounted (passing_turns ih.1)

/-- When its surveys are bounded, a pass in which no call fails comes to an empty
stack. -/
theorem exists_calm_pass {bound : Nat}
    (bounded : ∀ turn, (tree.calmTurns tests filters limit passStart turn).log.length ≤ bound) :
    ∃ survey, tree.Passing tests filters limit passStart ∅ survey ∧ survey.walk.stack = [] ∧
      Calm tree limit survey := by
  obtain ⟨turn, stuck⟩ : ∃ turn, ¬tree.TreeTurn tests filters limit passStart
      (tree.calmTurns tests filters limit passStart turn)
      (tree.calmTurns tests filters limit passStart (turn + 1)) := turns_stop _ bounded
  have reached : tree.Passing tests filters limit passStart ∅ (tree.calmTurns tests filters limit passStart turn) ∧
      Calm tree limit (tree.calmTurns tests filters limit passStart turn) := calm_turns_pass turn
  refine ⟨_, reached.1, ?_, reached.2⟩
  have next : tree.calmTurns tests filters limit passStart (turn + 1) =
      tree.calmTurn tests filters limit passStart (tree.calmTurns tests filters limit passStart turn) :=
    Function.iterate_succ_apply' _ _ _
  rw [next] at stuck
  cases taken : (tree.calmTurns tests filters limit passStart turn).walk.stack with
  | nil => rfl
  | cons dir rest =>
    rw [calmTurn, taken] at stuck
    exact absurd (.look dir rest _ (by rw [taken]) (answers_show dir)) stuck

omit [DecidableEq Text] in
theorem Calm.reaches (calm : Calm tree limit survey) (accounted : Accounted tests filters snapshot survey)
    (emptied : survey.walk.stack = []) (watched : Watched tests filters path)
    (isFound : tree.find limit path = some dir) : ∃ result, (path, result) ∈ survey.log := by
  obtain ⟨included, root, isRoot, below, rfl, wanted⟩ := watched
  have logs {path : List Name} (notExcluded : isExcluded path filters.excludedRoots = false)
      (reached : Reached filters survey.walk path) : ∃ result, (path, result) ∈ survey.log := by
    rcases reached with excluded | visited | waiting
    · rw [notExcluded] at excluded
      exact absurd excluded Bool.false_ne_true
    · exact calm.visited path visited
    · rw [emptied] at waiting
      cases waiting
  induction below using List.reverseRecOn generalizing dir with
  | nil =>
    rw [List.append_nil] at included ⊢
    exact logs included (accounted.roots root isRoot)
  | append_singleton below name ih =>
    rw [← List.append_assoc] at included isFound ⊢
    have aboveIncluded : isExcluded (root ++ below) filters.excludedRoots = false := by
      rw [Bool.eq_false_iff]
      intro excluded
      rw [excluded_below [name] excluded] at included
      exact Bool.false_ne_true included.symm
    obtain ⟨above, isAbove⟩ := find_of_append isFound
    obtain ⟨result, logged⟩ :=
      ih (fun other member => wanted other (List.mem_append_left _ member)) isAbove aboveIncluded
    have isListed := calm.found _ result above logged isAbove
    have steps : tree.step above name = some dir := by
      have located := locate_of_find isFound
      rw [locate, follow_append, ← locate, locate_of_find isAbove] at located
      simpa [follow_cons] using located
    obtain ⟨next, isNext, -⟩ := Option.map_eq_some_iff.mp steps
    obtain ⟨entry, stored, -⟩ := Option.bind_eq_some_iff.mp isNext
    apply logs included
    apply accounted.children _ result name logged
    rw [isListed]
    apply (mem_subdirs_fold _ _ _ _).mpr
    refine .inr ⟨List.mem_map.mpr ⟨tree.inspected limit (root ++ below) name entry, ?_, ?_⟩, ?_⟩
    · exact List.mem_map.mpr ⟨⟨name, entry⟩, AList.mem_lookup_iff.mp stored, rfl⟩
    · rw [inspected_shown, isFound]
      rfl
    · exact wanted name (by simp)

theorem links_repeated {loop : List Name} (loops : follow tree.step dir loop = some dir) (rounds : Nat) :
    tree.links dir (repeated loop rounds) = rounds * tree.links dir loop := by
  induction rounds with
  | zero => rw [repeated, links, Nat.zero_mul]
  | succ rounds ih => rw [repeated, links_append loops, ih, Nat.succ_mul, Nat.add_comm]

theorem unbounded_of_loops (loops : tree.Loops tests filters) : ¬tree.BoundedByTree tests filters := by
  rintro ⟨bound, within⟩
  obtain ⟨before, loop, dir, nonempty, under, wanted, arrives, returns, included⟩ := loops
  have arrivesBy (rounds : Nat) : tree.locate (before ++ repeated loop rounds) = some dir := by
    rw [locate, follow_append, ← locate, arrives, Option.bind_some, follow_repeated tree.step returns]
  have watched (rounds : Nat) : Watched tests filters (before ++ repeated loop rounds) := by
    obtain ⟨root, isRoot, below, rfl, clean⟩ := under
    refine ⟨included rounds, root, isRoot, below ++ repeated loop rounds, List.append_assoc _ _ _, ?_⟩
    intro name member
    rcases List.mem_append.mp member with above | later
    · exact clean name above
    · exact wanted name (mem_repeated later)
  -- The limit lets a path go round more often than the bound has room for.
  obtain ⟨survey, passing, emptied, calm⟩ :=
    exists_calm_pass fun turn => (within (tree.links tree.top before + (bound + 1) * tree.links dir loop) [] ∅
      .seed).2.1 0 _ (calm_turns_pass turn).1
  have reached (rounds : Nat) (few : rounds < bound + 1) :
      before ++ repeated loop rounds ∈ survey.log.map Prod.fst := by
    have enough : tree.links tree.top (before ++ repeated loop rounds) ≤
        tree.links tree.top before + (bound + 1) * tree.links dir loop := by
      rw [links_append arrives, links_repeated returns]
      exact Nat.add_le_add_left (Nat.mul_le_mul_right _ (Nat.le_of_lt few)) _
    obtain ⟨result, logged⟩ := calm.reaches (turns_accounted (passing_turns passing)) emptied (watched rounds)
      (find_within (arrivesBy rounds) enough)
    exact List.mem_map.mpr ⟨_, logged, rfl⟩
  have distinct : ((List.range (bound + 1)).map fun rounds => before ++ repeated loop rounds).Nodup := by
    apply List.Nodup.map _ List.nodup_range
    intro first second same
    have lengths := congrArg List.length (List.append_cancel_left same)
    rw [length_repeated, length_repeated] at lengths
    exact Nat.eq_of_mul_eq_mul_right (List.length_pos_of_ne_nil nonempty) lengths
  have inside : ((List.range (bound + 1)).map
    fun rounds => before ++ repeated loop rounds) ⊆ survey.log.map Prod.fst := by
    intro path member
    obtain ⟨rounds, few, rfl⟩ := List.mem_map.mp member
    exact reached rounds (List.mem_range.mp few)
  have many := (List.subperm_of_subset distinct inside).length_le
  have few := (within _ [] ∅ .seed).2.1 0 survey passing
  rw [List.length_map, List.length_map, List.length_range] at many
  omega

/-- Passes over a finite tree are bounded by the tree exactly when no watched
directory leads back to itself. -/
theorem bounded_by_tree_iff [Finite Dir] (tree : LinkedTree Name Dir) (tests : FileTests Name Text)
    (filters : PollFilters Name) : tree.BoundedByTree tests filters ↔ ¬tree.Loops tests filters :=
  ⟨fun bounded loops => unbounded_of_loops loops bounded, bounded_of_no_loop⟩

end Bounded

/-- The root holds a directory and a link to it. -/
def sharedTree : LinkedTree Nat (Fin 3) where
  top := 0
  entries dir :=
    if dir = 0 then (∅ : KeyedMap Nat (TreeEntry (Fin 3))).insert 0 (.directory 1)
    else if dir = 1 then ((∅ : KeyedMap Nat (TreeEntry (Fin 3))).insert 1 (.directory 2)).insert 2 (.link 2 0)
    else ∅

theorem shared_step {dir next : Fin 3} {name : Nat} (steps : sharedTree.step dir name = some next) :
    dir.val < next.val := by
  obtain ⟨found, isFound, rfl⟩ := Option.map_eq_some_iff.mp steps
  obtain ⟨entry, stored, leads⟩ := Option.bind_eq_some_iff.mp isFound
  fin_cases dir
  · change ((∅ : KeyedMap Nat (TreeEntry (Fin 3))).insert 0 (.directory 1)).lookup name = some entry at stored
    rw [KeyedMap.lookup_insert_eq] at stored
    split at stored
    · cases stored
      cases leads
      decide
    · exact absurd stored.symm (Option.some_ne_none entry)
  · change (((∅ : KeyedMap Nat (TreeEntry (Fin 3))).insert 1 (.directory 2)).insert 2 (.link 2 0)).lookup name =
      some entry at stored
    rw [KeyedMap.lookup_insert_eq, KeyedMap.lookup_insert_eq] at stored
    split at stored
    · cases stored
      cases leads
      decide
    · split at stored
      · cases stored
        cases leads
        decide
      · exact absurd stored.symm (Option.some_ne_none entry)
  · exact absurd stored.symm (Option.some_ne_none entry)

theorem shared_tree_bounded : sharedTree.BoundedByTree plainTests plainFilters := by
  apply (bounded_by_tree_iff sharedTree plainTests plainFilters).mpr
  rintro ⟨-, loop, dir, nonempty, -, -, -, returns, -⟩
  have climbs (walk : List Nat) : ∀ start last, follow sharedTree.step start walk = some last →
      start.val + walk.length ≤ last.val := by
    induction walk with
    | nil =>
        intro start last walks
        cases walks
        exact Nat.le_refl _
    | cons name rest ih =>
        intro start last walks
        rw [follow_cons] at walks
        obtain ⟨next, isNext, later⟩ := Option.bind_eq_some_iff.mp walks
        have here := shared_step isNext
        have there := ih next last later
        rw [List.length_cons]
        omega
  have back := climbs loop dir dir returns
  exact absurd (List.length_pos_of_ne_nil nonempty) (by omega)

/-- The root holds two links to itself. -/
def knotTree : LinkedTree Nat (Fin 2) where
  top := 0
  entries dir :=
    if dir = 0 then (∅ : KeyedMap Nat (TreeEntry (Fin 2))).insert 0 (.directory 1)
    else ((∅ : KeyedMap Nat (TreeEntry (Fin 2))).insert 1 (.link 1 0)).insert 2 (.link 1 0)

theorem knot_walk (turns : List Bool) :
    follow knotTree.step 1 (turns.map fun turn => if turn then 1 else 2) = some 1 ∧
      knotTree.links 1 (turns.map fun turn => if turn then 1 else 2) = turns.length := by
  induction turns with
  | nil => exact ⟨rfl, rfl⟩
  | cons turn rest ih =>
    have child : knotTree.child 1 (if turn then 1 else 2) = some (1, 1) := by
      cases turn <;> rfl
    rw [List.map_cons, follow_cons, step, child, links, child]
    refine ⟨ih.1, ?_⟩
    dsimp only
    rw [ih.2, List.length_cons, Nat.add_comm]

theorem knot_marking_ends :
    markSubtree (knotTree.calmTurns plainTests plainFilters 40 0 9).walk.snapshot
        ((knotTree.calmTurns plainTests plainFilters 40 0 9).walk.snapshot.weight (fun dir => dir.subdirs.length) + 1 +
          5) [[0]] [] =
      markSubtreeVisited (knotTree.calmTurns plainTests plainFilters 40 0 9).walk.snapshot [0] [] :=
  marking_ends (.seed : knotTree.Polled plainTests plainFilters 40 [] ∅) (calm_turns_pass 9).1 [0] [] 5

/-- Each link doubles the paths, so where the system lets a path follow forty
links a pass looks at two to the fortieth power of them. -/
theorem knot_unbounded : ¬knotTree.BoundedByTree plainTests plainFilters ∧
    ∃ survey, knotTree.Passing plainTests plainFilters 40 0 ∅ survey ∧ 2 ^ 40 ≤ survey.log.length := by
  constructor
  · apply unbounded_of_loops
    refine ⟨[0], [1], 1, List.cons_ne_nil _ _, ⟨[0], List.mem_singleton.mpr rfl, [], rfl, ?_⟩, ?_, rfl, rfl, ?_⟩
    · exact nofun
    · exact fun _ _ => rfl
    · exact fun _ => rfl
  · by_contra few
    push Not at few
    have short (turn : Nat) : (knotTree.calmTurns plainTests plainFilters 40 0 turn).log.length ≤ 2 ^ 40 :=
      Nat.le_of_lt (few _ (calm_turns_pass turn).1)
    obtain ⟨survey, passing, emptied, calm⟩ := exists_calm_pass short
    apply Nat.not_le_of_gt (few survey passing)
    have reached (turns : Fin 40 → Bool) :
        0 :: ((List.ofFn turns).map fun turn => if turn then 1 else 2) ∈ (survey.log.map Prod.fst).toFinset := by
      have arrives : knotTree.locate [0] = some 1 := rfl
      obtain ⟨walks, counted⟩ := knot_walk (List.ofFn turns)
      have located : knotTree.locate ([0] ++ (List.ofFn turns).map fun turn => if turn then 1 else 2) = some 1 := by
        rw [locate, follow_append, ← locate, arrives, Option.bind_some, walks]
      have enough : knotTree.links knotTree.top ([0] ++ (List.ofFn turns).map
        fun turn => if turn then 1 else 2) ≤ 40 := by
        rw [links_append arrives, counted, List.length_ofFn]
        decide
      have watched : Watched plainTests plainFilters
          ([0] ++ (List.ofFn turns).map fun turn => if turn then 1 else 2) :=
        ⟨rfl, [0], List.mem_singleton.mpr rfl, _, rfl, fun _ _ => rfl⟩
      obtain ⟨result, logged⟩ := calm.reaches (turns_accounted (passing_turns passing)) emptied watched
        (find_within located enough)
      exact List.mem_toFinset.mpr (List.mem_map.mpr ⟨_, logged, rfl⟩)
    have distinct : Function.Injective fun turns : Fin 40 → Bool =>
        0 :: ((List.ofFn turns).map fun turn => if turn then 1 else 2) := by
      intro first second same
      apply List.ofFn_injective
      apply List.map_injective_iff.mpr _ (List.cons.inj same).2
      intro turn other equal
      cases turn <;> cases other <;> simp at equal ⊢
    have many : Fintype.card (Fin 40 → Bool) ≤ (survey.log.map Prod.fst).toFinset.card := by
      rw [← Finset.card_univ]
      apply Finset.card_le_card_of_injOn _ (fun turns _ => reached turns) distinct.injOn
    rw [Fintype.card_fun, Fintype.card_bool, Fintype.card_fin] at many
    have listed := List.toFinset_card_le (survey.log.map Prod.fst)
    rw [List.length_map] at listed
    exact Nat.le_trans many listed

end LinkedTree

end Panoptikon.DirPoller
