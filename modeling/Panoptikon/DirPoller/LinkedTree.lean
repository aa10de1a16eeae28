import Panoptikon.DirPoller.Failures
import Panoptikon.Foundation.Walks

/-!
# Trees with links

A finite graph of directories, where a symbolic link leads to any directory. A
pass tells directories apart by the text of their paths, so a link back to a
directory on the way to it unfolds without end. The system refuses a path that
follows more links than some limit, and nothing else stops the pass: passes are
bounded whatever the limit exactly when no watched directory leads back to
itself.
-/

namespace Panoptikon.DirPoller

open Foundation Foundation.Walks

variable {Name Text Dir : Type} [DecidableEq Name]

/-- What a directory holds under a name. A link leads to a directory, through
`further` links of its own; files and dead links are `other`. -/
inductive TreeEntry (Dir : Type) where
  | directory (sub : Dir)
  | link (target : Dir) (further : Nat)
  | other

/-- The directory an entry leads to, and the links that takes. -/
def TreeEntry.leads : TreeEntry Dir → Option (Dir × Nat)
  | .directory sub => some (sub, 0)
  | .link target further => some (target, further + 1)
  | .other => none

structure LinkedTree (Name Dir : Type) [DecidableEq Name] where
  top : Dir
  entries : Dir → KeyedMap Name (TreeEntry Dir)

namespace LinkedTree

variable (tree : LinkedTree Name Dir)

def child (dir : Dir) (name : Name) : Option (Dir × Nat) := ((tree.entries dir).lookup name).bind TreeEntry.leads

def step (dir : Dir) (name : Name) : Option Dir := (tree.child dir name).map Prod.fst

/-- The directory at a path, however many links it follows. -/
def locate (path : List Name) : Option Dir := follow tree.step tree.top path

/-- The links a path follows. -/
def links (dir : Dir) : List Name → Nat
  | [] => 0
  | name :: rest =>
      match tree.child dir name with
      | none => 0
      | some (next, count) => count + links next rest

/-- The directory the system finds at a path: past the limit on links there is
none. -/
def find (limit : Nat) (path : List Name) : Option Dir :=
  if tree.links tree.top path ≤ limit then tree.locate path else none

/-- Answers that say nothing untrue of the tree. Any call may fail. -/
structure Shows (limit : Nat) (path : List Name) (answer : Answer Name) : Prop where
  stat : ∀ modified, answer.stat = some modified → ∃ dir, tree.find limit path = some dir
  listing : ∀ entries, answer.entries = some entries → ∀ entry ∈ entries, entry.found = .directory →
    ∃ dir, tree.find limit (path ++ [entry.name]) = some dir

variable [DecidableEq Text] (tests : FileTests Name Text) (filters : PollFilters Name) (limit : Nat)

inductive TreeTurn (passStart : Int) : Survey Name Text → Survey Name Text → Prop where
  | look {survey : Survey Name Text} (dir : List Name) (rest : List (List Name)) (answer : Answer Name)
      (taken : survey.walk.stack.Perm (dir :: rest)) (shows : tree.Shows limit dir answer) :
      TreeTurn passStart survey (survey.look tests filters passStart dir rest answer)

/-- The surveys of a pass from a snapshot. -/
def Passing (passStart : Int) (snapshot : PollerSnapshot Name Text) (survey : Survey Name Text) : Prop :=
  Relation.ReflTransGen (tree.TreeTurn tests filters limit passStart) ⟨PollWalk.start filters snapshot, []⟩ survey

/-- The snapshots that passes make of the seeded one. -/
inductive Polled (rows : List (List Name × Text)) : PollerSnapshot Name Text → Prop where
  | seed : Polled rows (seedSnapshot tests filters rows)
  | pass {snapshot : PollerSnapshot Name Text} {survey : Survey Name Text} (polled : Polled rows snapshot)
      (passStart : Int) (passing : tree.Passing tests filters limit passStart snapshot survey)
      (emptied : survey.walk.stack = []) : Polled rows survey.walk.finish.snapshot

/-- One bound, whatever the limit on links, the seeds and the passes before: on
what a snapshot records beyond its seeds and on the directories a pass looks at;
and every pass stops. -/
def BoundedByTree : Prop :=
  ∃ bound : Nat, ∀ (limit : Nat) (rows : List (List Name × Text)) (snapshot : PollerSnapshot Name Text),
    tree.Polled tests filters limit rows snapshot →
    snapshot.keys.length ≤ rows.length + bound ∧
    (∀ passStart survey, tree.Passing tests filters limit passStart snapshot survey →
      survey.log.length ≤ bound) ∧
    ∀ (passStart : Int) (turns : Nat → Survey Name Text), turns 0 = ⟨PollWalk.start filters snapshot, []⟩ →
      ∃ turn, ¬tree.TreeTurn tests filters limit passStart (turns turn) (turns (turn + 1))

/-- A directory under a root leads back to itself along names that are no junk,
and no number of rounds meets an excluded root. -/
def Loops : Prop :=
  ∃ before loop dir, loop ≠ [] ∧ UnderRoot tests filters before ∧
    (∀ name ∈ loop, tests.isJunkDirName name = false) ∧
    tree.locate before = some dir ∧ follow tree.step dir loop = some dir ∧
    ∀ rounds, isExcluded (before ++ repeated loop rounds) filters.excludedRoots = false

end LinkedTree

end Panoptikon.DirPoller
