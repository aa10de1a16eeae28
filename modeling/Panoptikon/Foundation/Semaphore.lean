import Mathlib.Algebra.BigOperators.Group.List.Basic
import Mathlib.Algebra.GroupWithZero.Nat
import Mathlib.Data.List.Nodup

/-!
# Counting semaphores

A semaphore with permits and a queue that is served in order. Who holds and who
waits is read off a list of tasks, and the permits that are free and those that are
held stay as many as there were. What the tasks hold together is a tally, and what
becomes of it when one of them changes comes first.
-/

namespace Foundation

section Tallies

variable {Elem : Type}

def tally (measure : Elem → Nat) (elems : List Elem) : Nat := (elems.map measure).sum

variable (measure : Elem → Nat)

@[simp] theorem tally_nil : tally measure [] = 0 := rfl

@[simp] theorem tally_cons (first : Elem) (rest : List Elem) :
    tally measure (first :: rest) = measure first + tally measure rest := by
  simp [tally]

@[simp] theorem tally_append (first last : List Elem) :
    tally measure (first ++ last) = tally measure first + tally measure last := by
  simp [tally]

theorem tally_set {measure : Elem → Nat} {elems : List Elem} {place : Nat} {old : Elem} (new : Elem)
    (isOld : elems[place]? = some old) :
    tally measure (elems.set place new) + measure old = tally measure elems + measure new := by
  induction elems generalizing place with
  | nil => cases isOld
  | cons first rest ih =>
    cases place with
    | zero =>
      obtain rfl : first = old := Option.some.inj isOld
      rw [List.set_cons_zero, tally_cons, tally_cons]
      omega
    | succ place =>
      have later := @ih place isOld
      rw [List.set_cons_succ, tally_cons, tally_cons]
      omega

theorem tally_zero {measure : Elem → Nat} {elems : List Elem} (none : ∀ elem ∈ elems, measure elem = 0) :
    tally measure elems = 0 := by
  induction elems with
  | nil => rfl
  | cons first rest ih =>
    rw [List.forall_mem_cons] at none
    rw [tally_cons, none.1, ih none.2]

end Tallies

structure Semaphore where
  free : Nat
  /-- Who waits and for how many permits, the first in front. -/
  queue : List (Nat × Nat)

namespace Semaphore

/-- There is no semaphore with more permits than the limit. -/
def create (limit permits : Nat) : Option Semaphore := if permits ≤ limit then some ⟨permits, []⟩ else none

/-- Whether the permits are given at once. -/
def grants (semaphore : Semaphore) (want : Nat) : Bool :=
  want = 0 || (semaphore.queue.isEmpty && want ≤ semaphore.free)

def take (semaphore : Semaphore) (want : Nat) : Semaphore := { semaphore with free := semaphore.free - want }

def enqueue (semaphore : Semaphore) (task want : Nat) : Semaphore :=
  { semaphore with queue := semaphore.queue ++ [(task, want)] }

def release (semaphore : Semaphore) (permits : Nat) : Semaphore :=
  { semaphore with free := semaphore.free + permits }

/-- The first in the queue, when there are permits for it. -/
def admitFirst (semaphore : Semaphore) : Option (Nat × Nat × Semaphore) :=
  match semaphore.queue with
  | [] => none
  | (task, want) :: rest =>
      if want ≤ semaphore.free then some (task, want, ⟨semaphore.free - want, rest⟩) else none

/-- A task that is dropped waits no more. -/
def leave (semaphore : Semaphore) (task : Nat) : Semaphore :=
  { semaphore with queue := semaphore.queue.filter fun entry => entry.1 ≠ task }

theorem create_some {limit permits : Nat} {semaphore : Semaphore}
    (created : create limit permits = some semaphore) : semaphore = ⟨permits, []⟩ := by
  unfold create at created
  split at created <;> cases created
  rfl

end Semaphore

section

variable {Task : Type} (holds : Task → Nat) (waits : Task → Option Nat)

/-- The tasks hold what is not free, and those in the queue are those that wait, each for no more
than there is. -/
structure Balanced (capacity : Nat) (semaphore : Semaphore) (tasks : List Task) : Prop where
  total : semaphore.free + tally holds tasks = capacity
  distinct : (semaphore.queue.map Prod.fst).Nodup
  queued : ∀ task want, (task, want) ∈ semaphore.queue ↔ tasks[task]?.bind waits = some want
  bounded : ∀ task want, (task, want) ∈ semaphore.queue → want ≤ capacity

variable {holds waits} {capacity : Nat} {semaphore : Semaphore} {tasks : List Task}

theorem Balanced.held_le (balanced : Balanced holds waits capacity semaphore tasks) :
    tally holds tasks ≤ capacity := by
  have := balanced.total
  omega

theorem balanced_create (capacity : Nat) : Balanced holds waits capacity ⟨capacity, []⟩ [] := by
  refine ⟨rfl, List.nodup_nil, fun task want => ?_, fun task want absent => ?_⟩
  · simp
  · cases absent

variable {next : Semaphore}

theorem Balanced.append (balanced : Balanced holds waits capacity semaphore tasks) {task : Task}
    (none : waits task = none) (queue : next.queue = semaphore.queue)
    (free : next.free + holds task = semaphore.free) : Balanced holds waits capacity next (tasks ++ [task]) := by
  refine ⟨?_, by rw [queue]; exact balanced.distinct, fun place want => ?_, fun place want member => ?_⟩
  · have := balanced.total
    rw [tally_append, tally_cons, tally_nil]
    omega
  · rw [queue, balanced.queued]
    rcases Nat.lt_trichotomy place tasks.length with inside | rfl | outside
    · rw [List.getElem?_append_left inside]
    · simp [none]
    · rw [List.getElem?_eq_none (Nat.le_of_lt outside), List.getElem?_eq_none]
      rw [List.length_append, List.length_singleton]
      omega
  · rw [queue] at member
    exact balanced.bounded place want member

variable {place : Nat} {old new : Task}

section

variable (balanced : Balanced holds waits capacity semaphore tasks)

include balanced

/-- A task changes with the semaphore: what it gives or takes is what it no longer or now holds, and
it alone enters or leaves the queue. -/
theorem Balanced.set (isOld : tasks[place]? = some old)
    (free : next.free + holds new = semaphore.free + holds old) (distinct : (next.queue.map Prod.fst).Nodup)
    (others : ∀ other want, other ≠ place → ((other, want) ∈ next.queue ↔ (other, want) ∈ semaphore.queue))
    (own : ∀ want, (place, want) ∈ next.queue ↔ waits new = some want)
    (bounded : ∀ want, waits new = some want → want ≤ capacity) :
    Balanced holds waits capacity next (tasks.set place new) := by
  have inside : place < tasks.length := (List.getElem?_eq_some_iff.mp isOld).1
  refine ⟨?_, distinct, fun other want => ?_, fun other want member => ?_⟩
  · have := balanced.total
    have := @tally_set _ holds _ _ _ new isOld
    omega
  · by_cases same : other = place
    · rw [same, own, List.getElem?_set_self inside, Option.bind_some]
    · rw [others other want same, List.getElem?_set_ne (Ne.symm same), balanced.queued]
  · by_cases same : other = place
    · rw [same, own] at member
      exact bounded want member
    · exact balanced.bounded other want ((others other want same).mp member)

theorem Balanced.set_running (isOld : tasks[place]? = some old) (oldNone : waits old = none)
    (newNone : waits new = none) (queue : next.queue = semaphore.queue)
    (free : next.free + holds new = semaphore.free + holds old) :
    Balanced holds waits capacity next (tasks.set place new) := by
  refine balanced.set isOld free (queue ▸ balanced.distinct) (fun _ _ _ => by rw [queue]) (fun want => ?_)
    fun want isWaiting => ?_
  · rw [queue, balanced.queued, isOld, Option.bind_some, oldNone, newNone]
  · rw [newNone] at isWaiting
    cases isWaiting

theorem Balanced.set_enqueued {place want : Nat} (isOld : tasks[place]? = some old) (oldNone : waits old = none)
    (newWaits : waits new = some want) (fits : want ≤ capacity) (held : holds new = holds old) :
    Balanced holds waits capacity (semaphore.enqueue place want) (tasks.set place new) := by
  have absent : ∀ other, (place, other) ∉ semaphore.queue := by
    intro other member
    rw [balanced.queued, isOld, Option.bind_some, oldNone] at member
    cases member
  refine balanced.set isOld ?_ ?_ (fun other amount differs => ?_) (fun amount => ?_) fun amount isWaiting => ?_
  · rw [held]
    rfl
  · simp only [Semaphore.enqueue, List.map_append, List.map_cons, List.map_nil]
    refine List.nodup_append'.mpr ⟨balanced.distinct, List.nodup_singleton _, ?_⟩
    rw [List.disjoint_singleton]
    intro member
    obtain ⟨entry, listed, same⟩ := List.mem_map.mp member
    exact absent entry.2 (same ▸ listed)
  · simp [Semaphore.enqueue, differs]
  · simp only [Semaphore.enqueue, List.mem_append, List.mem_singleton, Prod.mk.injEq, true_and, newWaits,
      Option.some.injEq, absent, false_or]
    exact eq_comm
  · rw [newWaits] at isWaiting
    exact Option.some.inj isWaiting ▸ fits

end

variable {task want : Nat}

theorem admit_first_spec (admitted : semaphore.admitFirst = some (task, want, next)) :
    semaphore.queue = (task, want) :: next.queue ∧ want ≤ semaphore.free ∧
      next.free = semaphore.free - want := by
  unfold Semaphore.admitFirst at admitted
  split at admitted
  · cases admitted
  · rename_i first amount rest isQueue
    split at admitted
    · rename_i fits
      cases admitted
      exact ⟨isQueue, fits, rfl⟩
    · cases admitted

section

variable (balanced : Balanced holds waits capacity semaphore tasks)

include balanced

theorem Balanced.admitted_waits (admitted : semaphore.admitFirst = some (task, want, next)) :
    ∃ old, tasks[task]? = some old ∧ waits old = some want := by
  have first : (task, want) ∈ semaphore.queue := by
    rw [(admit_first_spec admitted).1]
    exact List.mem_cons_self
  exact Option.bind_eq_some_iff.mp ((balanced.queued task want).mp first)

theorem Balanced.set_admitted (admitted : semaphore.admitFirst = some (task, want, next))
    (isOld : tasks[task]? = some old) (newNone : waits new = none)
    (held : holds new = holds old + want) : Balanced holds waits capacity next (tasks.set task new) := by
  obtain ⟨queue, fits, free⟩ := admit_first_spec admitted
  have distinct := balanced.distinct
  rw [queue, List.map_cons, List.nodup_cons] at distinct
  refine balanced.set isOld (by omega) distinct.2 (fun other amount differs => ?_) (fun amount => ?_)
    fun amount isWaiting => ?_
  · rw [queue, List.mem_cons, Prod.mk.injEq, or_iff_right (fun same => differs same.1)]
  · rw [newNone]
    refine iff_of_false (fun member => distinct.1 ?_) nofun
    exact List.mem_map.mpr ⟨(task, amount), member, rfl⟩
  · rw [newNone] at isWaiting
    cases isWaiting

theorem Balanced.set_dropped (isOld : tasks[place]? = some old) (newNone : waits new = none)
    (nothing : holds new = 0) :
    Balanced holds waits capacity ((semaphore.leave place).release (holds old)) (tasks.set place new) := by
  refine balanced.set isOld (by rw [nothing]; rfl) ?_ (fun other amount differs => ?_) (fun amount => ?_)
    fun amount isWaiting => ?_
  · exact balanced.distinct.sublist (List.filter_sublist.map Prod.fst)
  · simp [Semaphore.leave, Semaphore.release, differs]
  · simp [Semaphore.leave, Semaphore.release, newNone]
  · rw [newNone] at isWaiting
    cases isWaiting

theorem Balanced.admits
    (idle : tally holds tasks = 0) {place want : Nat} {task : Task} (isTask : tasks[place]? = some task)
    (isWaiting : waits task = some want) : ∃ first amount next, semaphore.admitFirst = some (first, amount, next) := by
  have listed : (place, want) ∈ semaphore.queue :=
    (balanced.queued place want).mpr (by rw [isTask, Option.bind_some, isWaiting])
  cases isQueue : semaphore.queue with
  | nil =>
    rw [isQueue] at listed
    cases listed
  | cons entry rest =>
    have bounded := balanced.bounded entry.1 entry.2 (by rw [isQueue]; exact List.mem_cons_self)
    have total := balanced.total
    have fits : entry.2 ≤ semaphore.free := by omega
    exact ⟨entry.1, entry.2, ⟨semaphore.free - entry.2, rest⟩, by
      simp only [Semaphore.admitFirst, isQueue, if_pos fits]⟩

end

end

end Foundation
