import Panoptikon.DirPoller.History

/-!
# What a listing shows

An enumeration reads the admissible files of a directory and the directories below
it. While its mtime is a settled one, the directory goes on showing the same.
-/

namespace Panoptikon.DirPoller

open Foundation

variable {Name Text Dir File : Type} [DecidableEq Name]
  {tests : FileTests Name Text} {filters : PollFilters Name}

variable (path : List Name)

theorem mem_files_add (listing : DirListing Name Text) (name other : Name)
    (found : Metadata) : other ∈ (listing.add tests filters path name found).files ↔
      other ∈ listing.files ∨ (other = name ∧ ∃ modified len, found = .file modified len ∧
        tests.isHiddenOrTemp name = false ∧ filters.hasAllowedExtension name = true ∧
        isExcluded (path ++ [name]) filters.excludedRoots = false ∧
        (tests.formatSystemTime modified).isSome = true) := by
  cases found with
  | directory =>
    rw [DirListing.add]
    split <;> simp
  | other => simp [DirListing.add]
  | file modified len =>
    rw [DirListing.add]
    split
    · rename_i rejected
      constructor
      · exact .inl
      · rintro (listed | ⟨_, _, _, same, shown, allowed, included, _⟩)
        · exact listed
        · rcases rejected with hidden | disallowed | excluded
          · rw [shown] at hidden
            cases hidden
          · rw [allowed] at disallowed
            cases disallowed
          · rw [included] at excluded
            cases excluded
    · rename_i accepted
      rw [not_or, not_or] at accepted
      obtain ⟨shown, allowed, included⟩ := accepted
      split
      · rename_i undated
        constructor
        · exact .inl
        · rintro (listed | ⟨_, _, _, same, _, _, _, dated⟩)
          · exact listed
          · cases same
            rw [undated] at dated
            cases dated
      · rename_i lastModified dated
        rw [AList.mem_insert]
        constructor
        · rintro (same | listed)
          · exact .inr ⟨same, modified, len, rfl, by simpa using shown, by simpa using allowed,
              by simpa using included, by rw [dated]; rfl⟩
          · exact .inl listed
        · rintro (listed | ⟨same, _⟩)
          · exact .inr listed
          · exact .inl same

theorem mem_subdirs_add (listing : DirListing Name Text) (name other : Name)
    (found : Metadata) : other ∈ (listing.add tests filters path name found).subdirs ↔
      other ∈ listing.subdirs ∨ (other = name ∧ found = .directory ∧ tests.isJunkDirName name = false) := by
  cases found with
  | directory =>
    rw [DirListing.add]
    split
    · rename_i junk
      simp [junk]
    · rename_i walkable
      rw [List.mem_insert_iff]
      simp [walkable, or_comm]
  | other => simp [DirListing.add]
  | file modified len =>
    rw [DirListing.add]
    split
    · simp
    · split <;> simp

theorem mem_files_fold (entries : List (Name × Metadata)) (listing : DirListing Name Text) (name : Name) :
    name ∈ (entries.foldl (fun listing entry => listing.add tests filters path entry.1 entry.2) listing).files ↔
      name ∈ listing.files ∨ ∃ modified len, (name, Metadata.file modified len) ∈ entries ∧
        tests.isHiddenOrTemp name = false ∧ filters.hasAllowedExtension name = true ∧
        isExcluded (path ++ [name]) filters.excludedRoots = false ∧
        (tests.formatSystemTime modified).isSome = true := by
  induction entries generalizing listing with
  | nil => simp
  | cons entry rest ih =>
    obtain ⟨own, found⟩ := entry
    rw [List.foldl_cons, ih, mem_files_add, or_assoc]
    refine or_congr_right ⟨?_, ?_⟩
    · rintro (⟨rfl, modified, len, rfl, admitted⟩ | ⟨modified, len, later, admitted⟩)
      · exact ⟨modified, len, List.mem_cons_self, admitted⟩
      · exact ⟨modified, len, List.mem_cons_of_mem _ later, admitted⟩
    · rintro ⟨modified, len, member, admitted⟩
      rcases List.mem_cons.mp member with same | later
      · cases same
        exact .inl ⟨rfl, modified, len, rfl, admitted⟩
      · exact .inr ⟨modified, len, later, admitted⟩

theorem mem_subdirs_fold (entries : List (Name × Metadata)) (listing : DirListing Name Text) (name : Name) :
    name ∈ (entries.foldl (fun listing entry => listing.add tests filters path entry.1 entry.2)
        listing).subdirs ↔
      name ∈ listing.subdirs ∨ ((name, Metadata.directory) ∈ entries ∧ tests.isJunkDirName name = false) := by
  induction entries generalizing listing with
  | nil => simp
  | cons entry rest ih =>
    obtain ⟨own, found⟩ := entry
    rw [List.foldl_cons, ih, mem_subdirs_add, or_assoc]
    refine or_congr_right ⟨?_, ?_⟩
    · rintro (⟨rfl, rfl, walkable⟩ | ⟨later, walkable⟩)
      · exact ⟨List.mem_cons_self, walkable⟩
      · exact ⟨List.mem_cons_of_mem _ later, walkable⟩
    · rintro ⟨member, walkable⟩
      rcases List.mem_cons.mp member with same | later
      · cases same
        exact .inl ⟨rfl, rfl, walkable⟩
      · exact .inr ⟨later, walkable⟩

variable {disk : Disk Name Dir File}

theorem mem_entries_of {dir : Dir} {name : Name} {found : Metadata} : (name, found) ∈ disk.entriesOf dir ↔
      ∃ node, (disk.directories dir).entries.lookup name = some node ∧ disk.metadata node = found := by
  rw [Disk.entriesOf, List.mem_map]
  constructor
  · rintro ⟨⟨own, node⟩, member, same⟩
    cases same
    exact ⟨node, AList.mem_lookup_iff.mpr member, rfl⟩
  · rintro ⟨node, held, rfl⟩
    exact ⟨⟨name, node⟩, AList.mem_lookup_iff.mp held, rfl⟩

/-- What the snapshot of a directory has is what the directory holds. -/
structure Disk.Shows (disk : Disk Name Dir File) (tests : FileTests Name Text) (filters : PollFilters Name)
    (path : List Name) (dir : Dir) (files : KeyedMap Name (FileMeta Text)) (subdirs : List Name) : Prop where
  files : ∀ name, name ∈ files ↔ disk.Admissible tests filters path dir name
  subdirs : ∀ name, name ∈ subdirs ↔ disk.Walkable tests dir name

theorem enumerate_shows (dir : Dir) :
    disk.Shows tests filters path dir (enumerateDir tests filters path (disk.entriesOf dir)).files
      (enumerateDir tests filters path (disk.entriesOf dir)).subdirs := by
  constructor
  · intro name
    rw [enumerateDir, mem_files_fold]
    constructor
    · rintro (absent | ⟨modified, len, member, admitted⟩)
      · exact absurd absent (AList.notMem_empty name)
      · obtain ⟨node, held, same⟩ := mem_entries_of.mp member
        cases node with
        | directory | other => cases same
        | file file =>
          cases same
          exact ⟨file, held, admitted⟩
    · rintro ⟨file, held, admitted⟩
      exact .inr ⟨_, _, mem_entries_of.mpr ⟨.file file, held, rfl⟩, admitted⟩
  · intro name
    rw [enumerateDir, mem_subdirs_fold]
    constructor
    · rintro (absent | ⟨member, walkable⟩)
      · cases absent
      · obtain ⟨node, held, same⟩ := mem_entries_of.mp member
        cases node with
        | directory sub => exact ⟨sub, held, walkable⟩
        | other | file => cases same
    · rintro ⟨sub, held, walkable⟩
      exact .inr ⟨mem_entries_of.mpr ⟨.directory sub, held, rfl⟩, walkable⟩

variable {history : History Name Dir File}

omit [DecidableEq Name] in
theorem dated_same (stamps : history.StampsEntries tests) (first last : Nat) (file : File) :
    (tests.formatSystemTime ((history.disk first).files file).modified).isSome =
      (tests.formatSystemTime ((history.disk last).files file).modified).isSome := by
  have initially : ∀ moment,
      (tests.formatSystemTime ((history.disk moment).files file).modified).isSome =
        (tests.formatSystemTime ((history.disk 0).files file).modified).isSome := by
    intro moment
    induction moment with
    | zero => rfl
    | succ moment ih => exact (stamps.dated moment file).trans ih
  exact (initially first).trans (initially last).symm

theorem shows_later (stamps : history.StampsEntries tests) {path : List Name} {dir : Dir}
    {files : KeyedMap Name (FileMeta Text)} {subdirs : List Name} {first last : Nat} (ordered : first ≤ last)
    (settled : ((history.disk last).directories dir).modified + mtimeSettle < history.clock first)
    (shows_ : (history.disk first).Shows tests filters path dir files subdirs) :
    (history.disk last).Shows tests filters path dir files subdirs := by
  have same := (stamps.directories dir).same_of_settled history.monotone ordered settled
  constructor
  · intro name
    rw [shows_.files]
    refine exists_congr fun file => ?_
    rw [same, dated_same stamps first last file]
  · intro name
    rw [shows_.subdirs]
    refine exists_congr fun sub => ?_
    rw [same]

end Panoptikon.DirPoller
