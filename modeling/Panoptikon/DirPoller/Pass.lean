import Panoptikon.Foundation.KeyedMap

/-!
# The directory poller

`run_poll_pass_at` of `jobs/dir_poller.rs`, over paths that are the lists of their
names. The tests of a name's text and the text of a time are parameters. A hash
set's order is open, so the directories that wait are taken in any order.
-/

namespace Panoptikon.DirPoller

open Foundation

/-- The tests of `jobs/files/mod.rs` on a file's own name, and its text of a time. -/
structure FileTests (Name Text : Type) where
  isHiddenOrTemp : Name → Bool
  isJunkDirName : Name → Bool
  formatSystemTime : Int → Option Text

structure PollFilters (Name : Type) where
  roots : List (List Name)
  excludedRoots : List (List Name)
  /-- `has_allowed_extension` under the allowed extensions. -/
  hasAllowedExtension : Name → Bool

structure FileMeta (Text : Type) where
  lastModified : Text
  size : Option Int

structure DirSnapshot (Name Text : Type) where
  dirModified : Option Int
  files : KeyedMap Name (FileMeta Text)
  subdirs : List Name

def DirSnapshot.default {Name Text : Type} : DirSnapshot Name Text := ⟨none, ∅, []⟩

abbrev PollerSnapshot (Name Text : Type) := KeyedMap (List Name) (DirSnapshot Name Text)

/-- What the metadata of an entry say. An entry that is neither, or has none, is `other`. -/
inductive Metadata where
  | directory
  | file (modified : Int) (len : Int)
  | other

structure DirListing (Name Text : Type) where
  files : KeyedMap Name (FileMeta Text)
  subdirs : List Name

/-- `MTIME_SETTLE`, in nanoseconds. -/
def mtimeSettle : Int := 2000000000

variable {Name Text : Type} [DecidableEq Name] [DecidableEq Text]

def isExcluded (path : List Name) (excluded : List (List Name)) : Bool :=
  excluded.any fun excludedRoot => excludedRoot.isPrefixOf path

/-- The longest root the path is under is the one that counts. -/
def isUnderJunkDir (tests : FileTests Name Text) (path : List Name) (roots : List (List Name)) : Bool :=
  match ((roots.filter fun root => root.isPrefixOf path).map List.length).max? with
  | none => false
  | some depth => (path.drop depth).dropLast.any tests.isJunkDirName

variable (tests : FileTests Name Text) (filters : PollFilters Name)

def isSeeded (path : List Name) : Bool :=
  filters.roots.any (fun root => root.isPrefixOf path) &&
    !(isExcluded path filters.excludedRoots ||
      (path.getLast?.any tests.isHiddenOrTemp || isUnderJunkDir tests path filters.roots)) &&
    path.getLast?.any filters.hasAllowedExtension

def seedRow (snapshot : PollerSnapshot Name Text) (path : List Name) (lastModified : Text) :
    PollerSnapshot Name Text :=
  match path.getLast? with
  | none => snapshot
  | some name =>
      let dir := (snapshot.lookup path.dropLast).getD .default
      snapshot.insert path.dropLast { dir with files := dir.files.insert name ⟨lastModified, none⟩ }

def seedSnapshot (rows : List (List Name × Text)) : PollerSnapshot Name Text :=
  rows.foldl (fun snapshot row =>
    if isSeeded tests filters row.1 then seedRow snapshot row.1 row.2 else snapshot) ∅

def DirListing.add (path : List Name) (listing : DirListing Name Text) (name : Name) :
    Metadata → DirListing Name Text
  | .directory =>
      if tests.isJunkDirName name then listing
      else { listing with subdirs := listing.subdirs.insert name }
  | .file modified len =>
      if tests.isHiddenOrTemp name ∨ filters.hasAllowedExtension name = false ∨
          isExcluded (path ++ [name]) filters.excludedRoots then listing
      else
        match tests.formatSystemTime modified with
        | none => listing
        | some lastModified => { listing with files := listing.files.insert name ⟨lastModified, some len⟩ }
  | .other => listing

def enumerateDir (path : List Name) (entries : List (Name × Metadata)) : DirListing Name Text :=
  entries.foldl (fun listing entry => listing.add tests filters path entry.1 entry.2) ⟨∅, []⟩

structure PollWalk (Name Text : Type) where
  snapshot : PollerSnapshot Name Text
  changes : List (List Name × FileMeta Text)
  removals : List (List Name)
  visited : List (List Name)
  degraded : Bool
  stack : List (List Name)

def PollWalk.start (snapshot : PollerSnapshot Name Text) : PollWalk Name Text :=
  ⟨snapshot, [], [], [], false, filters.roots⟩

def markSubtree (snapshot : PollerSnapshot Name Text) :
    Nat → List (List Name) → List (List Name) → List (List Name)
  | 0, _, visited => visited
  | _ + 1, [], visited => visited
  | fuel + 1, current :: stack, visited =>
      let children :=
        match snapshot.lookup current with
        | none => []
        | some dir => (dir.subdirs.map fun sub => current ++ [sub]).filter (· ∉ visited)
      markSubtree snapshot fuel (children.reverse ++ stack) (current :: visited)

/-- A path is reached through its parent alone, so no more paths are popped than directories
are recorded. -/
def markSubtreeVisited (snapshot : PollerSnapshot Name Text) (dir : List Name)
    (visited : List (List Name)) : List (List Name) :=
  markSubtree snapshot (snapshot.weight (fun dir => dir.subdirs.length) + 1) [dir] visited

namespace PollWalk

def push (walk : PollWalk Name Text) (dir : List Name) (subdirs : List Name) : PollWalk Name Text :=
  { walk with stack := (subdirs.map fun sub => dir ++ [sub]).reverse ++ walk.stack }

def fail (walk : PollWalk Name Text) (dir : List Name) : PollWalk Name Text :=
  { walk with
    degraded := true
    visited := markSubtreeVisited walk.snapshot dir walk.visited }

/-- Whether a file is as the snapshot has it. -/
def knownUnchanged (old : DirSnapshot Name Text) (name : Name) (found : FileMeta Text) : Bool :=
  (old.files.lookup name).any fun previous =>
    previous.lastModified = found.lastModified ∧ (previous.size = none ∨ previous.size = found.size)

def enumerated (walk : PollWalk Name Text) (passStart : Int) (dir : List Name) (modified : Int)
    (listing : DirListing Name Text) : PollWalk Name Text :=
  let old := (walk.snapshot.lookup dir).getD .default
  let changed := listing.files.entries.filter fun file => !knownUnchanged old file.1 file.2
  let gone := old.files.keys.filter fun name => name ∉ listing.files
  let settled := modified + mtimeSettle < passStart
  { walk with
    changes := walk.changes ++ changed.map fun file => (dir ++ [file.1], file.2)
    removals := walk.removals ++ gone.map fun name => dir ++ [name]
    stack := (listing.subdirs.map fun sub => dir ++ [sub]).reverse ++ walk.stack
    snapshot := walk.snapshot.insert dir
      ⟨if settled then some modified else none, listing.files, listing.subdirs⟩ }

/-- A directory with the answers to its stat and to its enumeration. -/
def visit (walk : PollWalk Name Text) (passStart : Int) (dir : List Name) (stat : Option Int)
    (entries : Option (List (Name × Metadata))) : PollWalk Name Text :=
  match stat with
  | none => walk.fail dir
  | some modified =>
      let recorded := walk.snapshot.lookup dir
      if recorded.bind DirSnapshot.dirModified = some modified then
        match recorded with
        | none => walk
        | some snap => walk.push dir snap.subdirs
      else
        match entries with
        | none => walk.fail dir
        | some entries => walk.enumerated passStart dir modified (enumerateDir tests filters dir entries)

/-- A turn of the loop, after `dir` has left the stack. -/
def turn (walk : PollWalk Name Text) (passStart : Int) (dir : List Name) (stat : Option Int)
    (entries : Option (List (Name × Metadata))) : PollWalk Name Text :=
  if isExcluded dir filters.excludedRoots then walk
  else if dir ∈ walk.visited then walk
  else { walk with visited := dir :: walk.visited }.visit tests filters passStart dir stat entries

def retire (walk : PollWalk Name Text) (dir : List Name) : PollWalk Name Text :=
  match walk.snapshot.lookup dir with
  | none => walk
  | some snap =>
      { walk with
        snapshot := walk.snapshot.erase dir
        removals := walk.removals ++ snap.files.keys.map fun name => dir ++ [name] }

/-- The cleanup of the directories that were not visited. -/
def finish (walk : PollWalk Name Text) : PollWalk Name Text :=
  if walk.degraded then walk
  else (walk.snapshot.keys.filter fun dir => dir ∉ walk.visited).foldl retire walk

end PollWalk

end Panoptikon.DirPoller
