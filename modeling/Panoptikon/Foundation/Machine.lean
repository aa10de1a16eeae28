import Mathlib.Data.List.Basic

/-!
# Runs of a deterministic machine

A machine is an initial state and one total step function. A run is the fold
of the step over a list of operations, so "every reachable state" is "every
list of operations". The induction over runs is done once, here: an invariant
that holds initially and survives each operation admitted in the state it
meets holds after every run of admitted operations.
-/

namespace Foundation

structure Machine (State Op : Type*) where
  init : State
  step : State → Op → State

namespace Machine

variable {State Op : Type*} (machine : Machine State Op)

def run (ops : List Op) : State := ops.foldl machine.step machine.init

@[simp] theorem run_nil : machine.run [] = machine.init := rfl

/-- From `state` on, each operation is admitted in the state it meets. -/
def AdmittedFrom (Admitted : State → Op → Prop) : State → List Op → Prop
  | _, [] => True
  | state, op :: rest =>
      Admitted state op ∧ AdmittedFrom Admitted (machine.step state op) rest

def AdmittedRun (Admitted : State → Op → Prop) (ops : List Op) : Prop :=
  machine.AdmittedFrom Admitted machine.init ops

theorem admitted_run_of_forall {Admitted : Op → Prop} {ops : List Op}
    (admitted : ∀ op ∈ ops, Admitted op) : machine.AdmittedRun (fun _ op => Admitted op) ops := by
  have from_any : ∀ state, machine.AdmittedFrom (fun _ op => Admitted op) state ops := by
    induction ops with
    | nil => exact fun _ => trivial
    | cons op rest ih =>
      intro state
      exact ⟨admitted op (by simp), ih (fun later member => admitted later (by simp [member])) _⟩
  exact from_any machine.init

theorem AdmittedRun.and {machine : Machine State Op} {First Second : State → Op → Prop}
    {ops : List Op} (first : machine.AdmittedRun First ops) (second : machine.AdmittedRun Second ops) :
    machine.AdmittedRun (fun state op => First state op ∧ Second state op) ops := by
  have from_any : ∀ state, machine.AdmittedFrom First state ops →
      machine.AdmittedFrom Second state ops →
      machine.AdmittedFrom (fun state op => First state op ∧ Second state op) state ops := by
    clear first second
    induction ops with
    | nil => exact fun _ _ _ => trivial
    | cons op rest ih =>
      intro state first second
      exact ⟨⟨first.1, second.1⟩, ih _ first.2 second.2⟩
  exact from_any machine.init first second

theorem run_invariant (Invariant : State → Prop) (Admitted : State → Op → Prop) (start : Invariant machine.init)
    (preserved : ∀ state op, Admitted state op → Invariant state →
      Invariant (machine.step state op))
    (ops : List Op) (admitted : machine.AdmittedRun Admitted ops) : Invariant (machine.run ops) := by
  have from_any : ∀ state, Invariant state → machine.AdmittedFrom Admitted state ops →
      Invariant (ops.foldl machine.step state) := by
    clear admitted
    induction ops with
    | nil => exact fun _ holds _ => holds
    | cons op rest ih =>
      intro state holds admitted
      exact ih (machine.step state op) (preserved state op admitted.1 holds) admitted.2
  exact from_any machine.init start admitted

/-- Where every allowed operation that is not admitted shows, what follows a state stays
good exactly when it is admitted. -/
theorem prefixes_good_from (Allowed : Op → Prop) (Invariant Good : State → Prop)
    (Admitted : State → Op → Prop) (good : ∀ state, Invariant state → Good state)
    (preserved : ∀ state op, Allowed op → Admitted state op → Invariant state →
      Invariant (machine.step state op))
    (shows : ∀ state op, Allowed op → ¬Admitted state op → Invariant state → ¬Good (machine.step state op))
    {state : State} (holds : Invariant state) (ops : List Op) (allowed : ∀ op ∈ ops, Allowed op) :
    (∀ before, before <+: ops → Good (before.foldl machine.step state)) ↔
      machine.AdmittedFrom Admitted state ops := by
  induction ops generalizing state with
  | nil =>
    refine iff_of_true (fun before isPrefix => ?_) trivial
    rw [List.prefix_nil.mp isPrefix]
    exact good state holds
  | cons op rest ih =>
    have here := allowed op List.mem_cons_self
    have there : ∀ later ∈ rest, Allowed later := fun later member =>
      allowed later (List.mem_cons_of_mem _ member)
    constructor
    · intro all
      have admitted : Admitted state op := by
        by_contra refused
        exact shows state op here refused holds
          (all [op] (List.cons_prefix_cons.mpr ⟨rfl, List.nil_prefix⟩))
      refine ⟨admitted, (ih (preserved state op here admitted holds) there).mp fun before isPrefix => ?_⟩
      exact all (op :: before) (List.cons_prefix_cons.mpr ⟨rfl, isPrefix⟩)
    · rintro ⟨admitted, later⟩ before isPrefix
      cases before with
      | nil => exact good state holds
      | cons first others =>
        obtain ⟨rfl, isRest⟩ := List.cons_prefix_cons.mp isPrefix
        exact (ih (preserved state first here admitted holds) there).mpr later others isRest

theorem prefixes_good_iff_among (Allowed : Op → Prop) (Invariant Good : State → Prop)
    (Admitted : State → Op → Prop) (start : Invariant machine.init) (good : ∀ state, Invariant state → Good state)
    (preserved : ∀ state op, Allowed op → Admitted state op → Invariant state →
      Invariant (machine.step state op))
    (shows : ∀ state op, Allowed op → ¬Admitted state op → Invariant state → ¬Good (machine.step state op))
    (ops : List Op) (allowed : ∀ op ∈ ops, Allowed op) :
    (∀ before, before <+: ops → Good (machine.run before)) ↔ machine.AdmittedRun Admitted ops :=
  machine.prefixes_good_from Allowed Invariant Good Admitted good preserved shows start ops allowed

/-- Where every operation that is not admitted shows, the runs that stay good are
the admitted ones. -/
theorem prefixes_good_iff (Invariant Good : State → Prop) (Admitted : State → Op → Prop)
    (start : Invariant machine.init) (good : ∀ state, Invariant state → Good state)
    (preserved : ∀ state op, Admitted state op → Invariant state →
      Invariant (machine.step state op))
    (shows : ∀ state op, ¬Admitted state op → Invariant state → ¬Good (machine.step state op)) (ops : List Op) :
    (∀ before, before <+: ops → Good (machine.run before)) ↔ machine.AdmittedRun Admitted ops :=
  machine.prefixes_good_iff_among (fun _ => True) Invariant Good Admitted start good
    (fun state op _ => preserved state op) (fun state op _ => shows state op) ops fun _ _ => trivial

end Machine

end Foundation
