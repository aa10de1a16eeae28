import Panoptikon.DirPoller.Pass
import Panoptikon.Foundation.Stamps

/-!
# Passes over a file system that changes

A history is the file system at every moment, with the clock. A pass looks at a
directory at one moment and lists it at a later one, and the file system changes
in between as it likes. Any stat or enumeration may fail, which degrades the pass.
-/

namespace Panoptikon.DirPoller

open Foundation

variable {Name Text Dir File : Type} [DecidableEq Name] [DecidableEq Text]

/-- What a path holds, symbolic links followed. -/
inductive Node (Dir File : Type) where
  | directory (dir : Dir)
  | file (file : File)
  | other

structure Directory (Name Dir File : Type) where
  modified : Int
  entries : KeyedMap Name (Node Dir File)

structure Content where
  modified : Int
  len : Int

structure Disk (Name Dir File : Type) where
  top : Dir
  directories : Dir → Directory Name Dir File
  files : File → Content

namespace Disk

variable (disk : Disk Name Dir File)

def child (node : Node Dir File) (name : Name) : Option (Node Dir File) :=
  match node with
  | .directory dir => (disk.directories dir).entries.lookup name
  | _ => none

def find (path : List Name) : Option (Node Dir File) := path.foldlM disk.child (.directory disk.top)

def metadata : Node Dir File → Metadata
  | .directory _ => .directory
  | .file file => .file (disk.files file).modified (disk.files file).len
  | .other => .other

/-- What an enumeration of the directory reads. -/
def entriesOf (dir : Dir) : List (Name × Metadata) :=
  (disk.directories dir).entries.entries.map fun entry => (entry.1, disk.metadata entry.2)

/-- A time that a stat of the path may give. -/
def Stats (path : List Name) (modified : Int) : Prop :=
  match disk.find path with
  | none => False
  | some (.directory dir) => modified = (disk.directories dir).modified
  | some (.file file) => modified = (disk.files file).modified
  | some .other => True

variable (tests : FileTests Name Text) (filters : PollFilters Name)

/-- The directory holds a file of the name that the poller is to report. -/
def Admissible (path : List Name) (dir : Dir) (name : Name) : Prop :=
  ∃ file, (disk.directories dir).entries.lookup name = some (.file file) ∧
    tests.isHiddenOrTemp name = false ∧ filters.hasAllowedExtension name = true ∧
    isExcluded (path ++ [name]) filters.excludedRoots = false ∧
    (tests.formatSystemTime (disk.files file).modified).isSome = true

/-- The directory holds a directory of the name that the poller is to walk. -/
def Walkable (dir : Dir) (name : Name) : Prop :=
  ∃ sub, (disk.directories dir).entries.lookup name = some (.directory sub) ∧
    tests.isJunkDirName name = false

end Disk

structure History (Name Dir File : Type) where
  disk : Nat → Disk Name Dir File
  clock : Nat → Int
  monotone : Monotone clock

/-- Whatever creates, removes or renames an entry of a directory stamps the directory within
the recency window, and an edit in place leaves the time of a file writable as a text or not,
as it was. -/
structure History.StampsEntries (tests : FileTests Name Text) (history : History Name Dir File) : Prop where
  directories : ∀ dir, Stamped mtimeSettle history.clock
    (fun moment => ((history.disk moment).directories dir).entries)
    (fun moment => ((history.disk moment).directories dir).modified)
  dated : ∀ moment file,
    (tests.formatSystemTime ((history.disk (moment + 1)).files file).modified).isSome =
      (tests.formatSystemTime ((history.disk moment).files file).modified).isSome

/-- A directory that a pass looked at: by its mtime alone, where the recorded one was found
again, or by listing it. -/
structure Look (Name Dir File : Type) where
  path : List Name
  skipped : Bool
  modified : Int
  shown : Node Dir File
  seenAt : Nat

/-- A pass under way, with what it looked at. -/
structure Stage (Name Text Dir File : Type) where
  walk : PollWalk Name Text
  looks : List (Look Name Dir File)
  now : Nat

variable (tests : FileTests Name Text) (filters : PollFilters Name) (history : History Name Dir File)
  (passStart : Int)

/-- Turns of the loop over the moments of a history. -/
inductive PollStep : Stage Name Text Dir File → Stage Name Text Dir File → Prop where
  | passOver {walk : PollWalk Name Text} {looks : List (Look Name Dir File)} {now : Nat}
      {dir : List Name} {rest : List (List Name)} (stat : Option Int)
      (entries : Option (List (Name × Metadata))) (taken : walk.stack.Perm (dir :: rest))
      (skips : isExcluded dir filters.excludedRoots = true ∨ dir ∈ walk.visited) :
      PollStep ⟨walk, looks, now⟩
        ⟨{ walk with stack := rest }.turn tests filters passStart dir stat entries, looks, now⟩
  | statFailed {walk : PollWalk Name Text} {looks : List (Look Name Dir File)} {now later : Nat}
      {dir : List Name} {rest : List (List Name)} (taken : walk.stack.Perm (dir :: rest))
      (included : isExcluded dir filters.excludedRoots = false) (unvisited : dir ∉ walk.visited)
      (ordered : now ≤ later) :
      PollStep ⟨walk, looks, now⟩
        ⟨{ walk with stack := rest }.turn tests filters passStart dir none none, looks, later⟩
  | skipped {walk : PollWalk Name Text} {looks : List (Look Name Dir File)} {now statAt : Nat}
      {dir : List Name} {rest : List (List Name)} {modified : Int} {found : Node Dir File}
      (taken : walk.stack.Perm (dir :: rest)) (included : isExcluded dir filters.excludedRoots = false)
      (unvisited : dir ∉ walk.visited) (ordered : now ≤ statAt)
      (stats : (history.disk statAt).Stats dir modified) (here : (history.disk statAt).find dir = some found)
      (recorded : (walk.snapshot.lookup dir).bind DirSnapshot.dirModified = some modified) :
      PollStep ⟨walk, looks, now⟩
        ⟨{ walk with stack := rest }.turn tests filters passStart dir (some modified) none,
          looks ++ [⟨dir, true, modified, found, statAt⟩], statAt⟩
  | listFailed {walk : PollWalk Name Text} {looks : List (Look Name Dir File)} {now statAt later : Nat}
      {dir : List Name} {rest : List (List Name)} {modified : Int}
      (taken : walk.stack.Perm (dir :: rest)) (included : isExcluded dir filters.excludedRoots = false)
      (unvisited : dir ∉ walk.visited) (ordered : now ≤ statAt) (later_ : statAt ≤ later)
      (stats : (history.disk statAt).Stats dir modified)
      (differs : (walk.snapshot.lookup dir).bind DirSnapshot.dirModified ≠ some modified) :
      PollStep ⟨walk, looks, now⟩
        ⟨{ walk with stack := rest }.turn tests filters passStart dir (some modified) none, looks, later⟩
  | listed {walk : PollWalk Name Text} {looks : List (Look Name Dir File)} {now statAt listAt : Nat}
      {dir : List Name} {rest : List (List Name)} {modified : Int} {directory : Dir}
      (taken : walk.stack.Perm (dir :: rest)) (included : isExcluded dir filters.excludedRoots = false)
      (unvisited : dir ∉ walk.visited) (ordered : now ≤ statAt) (later : statAt ≤ listAt)
      (stats : (history.disk statAt).Stats dir modified)
      (differs : (walk.snapshot.lookup dir).bind DirSnapshot.dirModified ≠ some modified)
      (here : (history.disk listAt).find dir = some (.directory directory)) :
      PollStep ⟨walk, looks, now⟩
        ⟨{ walk with stack := rest }.turn tests filters passStart dir (some modified)
            (some ((history.disk listAt).entriesOf directory)),
          looks ++ [⟨dir, false, modified, .directory directory, listAt⟩], listAt⟩

/-- The poller's snapshot, with the files that what was reported makes. -/
structure Poller (Name Text : Type) where
  snapshot : PollerSnapshot Name Text
  reported : Set (List Name)
  now : Nat

/-- The seeded files, before any report. -/
def seededFiles (rows : List (List Name × Text)) : Set (List Name) :=
  { path | path ≠ [] ∧ isSeeded tests filters path = true ∧ ∃ row ∈ rows, row.1 = path }

def Poller.seed (rows : List (List Name × Text)) (now : Nat) : Poller Name Text :=
  ⟨seedSnapshot tests filters rows, seededFiles tests filters rows, now⟩

/-- The files after a pass's removals and changes. -/
def reportedAfter (reported : Set (List Name)) (walk : PollWalk Name Text) : Set (List Name) :=
  { path | (path ∈ reported ∧ path ∉ walk.removals) ∨ ∃ found, (path, found) ∈ walk.changes }

/-- A pass from one state of the poller to the next. It starts no earlier than its time. -/
structure Pass (poller : Poller Name Text) (looks : List (Look Name Dir File)) (degraded : Bool)
    (after : Poller Name Text) : Prop where
  stage : ∃ (passStart : Int) (start : Nat) (stage : Stage Name Text Dir File),
    poller.now ≤ start ∧ passStart ≤ history.clock start ∧
    Relation.ReflTransGen (PollStep tests filters history passStart)
      ⟨PollWalk.start filters poller.snapshot, [], start⟩ stage ∧
    stage.walk.stack = [] ∧ stage.looks = looks ∧ stage.walk.degraded = degraded ∧
    after = ⟨stage.walk.finish.snapshot, reportedAfter poller.reported stage.walk.finish, stage.now⟩

/-- Seeds and passes, one after the other. -/
inductive PollRun : Poller Name Text → List (Look Name Dir File) → Prop where
  | seed (rows : List (List Name × Text)) (now : Nat) : PollRun (Poller.seed tests filters rows now) []
  | reseed {poller : Poller Name Text} {looks : List (Look Name Dir File)} (run : PollRun poller looks)
      (rows : List (List Name × Text)) : PollRun (Poller.seed tests filters rows poller.now) looks
  | pass {poller after : Poller Name Text} {looks passLooks : List (Look Name Dir File)} {degraded : Bool}
      (run : PollRun poller looks) (pass : Pass tests filters history poller passLooks degraded after) :
      PollRun after (looks ++ passLooks)

/-- The last listing of a directory. -/
def lastListing (looks : List (Look Name Dir File)) (path : List Name) : Option (Look Name Dir File) :=
  (looks.filter fun look => !look.skipped && look.path = path).getLast?

/-- Where the recorded mtime is found again, the directory that was listed is found again. -/
def Recognized (looks : List (Look Name Dir File)) : Prop :=
  ∀ before look after listing, looks = before ++ look :: after → look.skipped = true →
    lastListing before look.path = some listing → look.shown = listing.shown

end Panoptikon.DirPoller
