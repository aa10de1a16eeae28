import Mathlib.Data.List.Nodup
import Mathlib.Data.List.Perm.Subperm

/-!
# Slots

A batch answers every input with a slot, which holds an output or a failure. A
response drops the failed slots from the outputs and lists them by their
position, so it says as much as the slots did.
-/

namespace Foundation

variable {Failure Output : Type}

def survivors (slots : List (Except Failure Output)) : List Output :=
  slots.filterMap Except.toOption

/-- The failures with their positions, the first of which is `base`. -/
def failures : Nat → List (Except Failure Output) → List (Nat × Failure)
  | _, [] => []
  | base, .error failure :: rest => (base, failure) :: failures (base + 1) rest
  | base, .ok _ :: rest => failures (base + 1) rest

def survivingPositions : Nat → List (Except Failure Output) → List Nat
  | _, [] => []
  | base, .error _ :: rest => survivingPositions (base + 1) rest
  | base, .ok _ :: rest => base :: survivingPositions (base + 1) rest

@[simp] theorem survivors_nil : survivors ([] : List (Except Failure Output)) = [] := rfl

@[simp] theorem survivors_append (first last : List (Except Failure Output)) :
    survivors (first ++ last) = survivors first ++ survivors last :=
  List.filterMap_append

theorem failures_append (base : Nat) (first last : List (Except Failure Output)) :
    failures base (first ++ last) = failures base first ++ failures (base + first.length) last := by
  induction first generalizing base with
  | nil => rfl
  | cons slot rest ih =>
    have shifted : base + (slot :: rest).length = base + 1 + rest.length := by
      rw [List.length_cons]
      omega
    rw [shifted]
    cases slot with
    | error failure => exact congrArg _ (ih (base + 1))
    | ok output => exact ih (base + 1)

theorem failures_shift (base offset : Nat) (slots : List (Except Failure Output)) : failures (base + offset) slots =
      (failures base slots).map fun failure => (failure.1 + offset, failure.2) := by
  induction slots generalizing base with
  | nil => rfl
  | cons slot rest ih =>
    have next := ih (base + 1)
    rw [Nat.add_right_comm] at next
    cases slot with
    | error failure => exact congrArg _ next
    | ok output => exact next

theorem mem_failures {base position : Nat} {failure : Failure} {slots : List (Except Failure Output)} :
    (position, failure) ∈ failures base slots ↔
      base ≤ position ∧ slots[position - base]? = some (.error failure) := by
  induction slots generalizing base with
  | nil => simp [failures]
  | cons slot rest ih =>
    rcases Nat.lt_trichotomy position base with before | rfl | after
    · cases slot <;> simp [failures, ih, Nat.not_le.mpr before] <;> omega
    · have later : ¬position + 1 ≤ position := by omega
      cases slot with
      | error other => simpa [failures, ih, Prod.ext_iff, later] using eq_comm
      | ok output => simp [failures, ih, later]
    · obtain ⟨later, rfl⟩ : ∃ later, position = base + 1 + later := ⟨position - base - 1, by omega⟩
      have index : base + 1 + later - base = later + 1 := by omega
      have earlier : base + 1 + later ≠ base := by omega
      rw [index]
      cases slot <;> simp [failures, ih, earlier] <;> omega

theorem surviving_positions_get {base place : Nat} {output : Output}
    {slots : List (Except Failure Output)} (found : (survivors slots)[place]? = some output) :
    ∃ position, (survivingPositions base slots)[place]? = some (base + position) ∧
      slots[position]? = some (.ok output) := by
  induction slots generalizing base place with
  | nil => simp at found
  | cons slot rest ih =>
    cases slot with
    | error failure =>
      obtain ⟨position, listed, isSlot⟩ := @ih (base + 1) place found
      refine ⟨position + 1, ?_, isSlot⟩
      rw [survivingPositions, listed]
      congr 1
      omega
    | ok first =>
      cases place with
      | zero =>
        obtain rfl : first = output := Option.some.inj found
        exact ⟨0, rfl, rfl⟩
      | succ place =>
        obtain ⟨position, listed, isSlot⟩ := @ih (base + 1) place found
        refine ⟨position + 1, ?_, isSlot⟩
        rw [survivingPositions, List.getElem?_cons_succ, listed]
        congr 1
        omega

theorem surviving_positions_eq (base : Nat) (slots : List (Except Failure Output)) : survivingPositions base slots =
      (List.range' base slots.length).filter
        fun position => position ∉ (failures base slots).map Prod.fst := by
  induction slots generalizing base with
  | nil => rfl
  | cons slot rest ih =>
    have later : ∀ position ∈ List.range' (base + 1) rest.length, base ≠ position := by
      intro position member
      have := (List.mem_range'_1.mp member).1
      omega
    have absent : base ∉ (failures (base + 1) rest).map Prod.fst := by
      intro member
      obtain ⟨⟨position, failure⟩, listed, rfl⟩ := List.mem_map.mp member
      have := (mem_failures.mp listed).1
      simp only at this
      omega
    rw [List.length_cons, List.range'_succ]
    cases slot with
    | error failure =>
      rw [survivingPositions, ih (base + 1), failures, List.map_cons,
        List.filter_cons_of_neg (by simp)]
      refine List.filter_congr fun position member => ?_
      simp [(later position member).symm]
    | ok output =>
      rw [survivingPositions, ih (base + 1), failures, List.filter_cons_of_pos (by simpa using absent)]

/-- The slots that outputs and failures by position leave, one for each position. -/
def fillSlots (failed : List (Nat × Failure)) : List Nat → List Output → List (Except Failure Output)
  | [], _ => []
  | position :: later, outputs =>
      match failed.find? fun failure => failure.1 = position with
      | some failure => .error failure.2 :: fillSlots failed later outputs
      | none =>
          match outputs with
          | [] => []
          | output :: rest => .ok output :: fillSlots failed later rest

section

variable (failed : List (Nat × Failure))

theorem find_failure_none {position : Nat} (missing : (failed.find? fun failure => failure.1 = position) = none) :
    position ∉ failed.map Prod.fst := by
  intro member
  obtain ⟨failure, listed, same⟩ := List.mem_map.mp member
  have differs := List.find?_eq_none.mp missing failure listed
  exact absurd same (by simpa using differs)

theorem find_failure_some {position : Nat} {failure : Nat × Failure}
    (found : (failed.find? fun failure => failure.1 = position) = some failure) :
    failure.1 = position ∧ failure ∈ failed :=
  ⟨by simpa using List.find?_some found, List.mem_of_find?_eq_some found⟩

/-- The positions no failure names. -/
def openPositions (positions : List Nat) : List Nat :=
  positions.filter fun position => position ∉ failed.map Prod.fst

theorem open_positions_failed {position : Nat} {failure : Nat × Failure} (later : List Nat)
    (found : (failed.find? fun failure => failure.1 = position) = some failure) :
    openPositions failed (position :: later) = openPositions failed later := by
  obtain ⟨rfl, member⟩ := find_failure_some failed found
  exact List.filter_cons_of_neg (by simpa using ⟨failure.2, member⟩)

theorem open_positions_open {position : Nat} (later : List Nat)
    (missing : (failed.find? fun failure => failure.1 = position) = none) :
    openPositions failed (position :: later) = position :: openPositions failed later :=
  List.filter_cons_of_pos (by simpa using find_failure_none failed missing)

theorem fill_slots_spec {positions : List Nat} {outputs : List Output}
    (counted : outputs.length = (openPositions failed positions).length) :
    (fillSlots failed positions outputs).length = positions.length ∧
      survivors (fillSlots failed positions outputs) = outputs := by
  induction positions generalizing outputs with
  | nil => exact ⟨rfl, (List.eq_nil_of_length_eq_zero counted).symm⟩
  | cons position later ih =>
    cases found : failed.find? fun failure => failure.1 = position with
    | some failure =>
      rw [open_positions_failed failed later found] at counted
      obtain ⟨length, same⟩ := ih counted
      simp only [fillSlots, found]
      exact ⟨congrArg (· + 1) length, same⟩
    | none =>
      rw [open_positions_open failed later found] at counted
      cases outputs with
      | nil => cases counted
      | cons output rest =>
        obtain ⟨length, same⟩ := ih (Nat.succ.inj counted)
        simp only [fillSlots, found]
        exact ⟨congrArg (· + 1) length, congrArg (output :: ·) same⟩

theorem fill_slots_failures {base count : Nat} {outputs : List Output}
    (counted : outputs.length = (openPositions failed (List.range' base count)).length) :
    failures base (fillSlots failed (List.range' base count) outputs) =
      (List.range' base count).filterMap fun position =>
        failed.find? fun failure => failure.1 = position := by
  induction count generalizing base outputs with
  | zero => rfl
  | succ count ih =>
    rw [List.range'_succ] at counted ⊢
    cases found : failed.find? fun failure => failure.1 = base with
    | some failure =>
      rw [open_positions_failed failed _ found] at counted
      have isBase := (find_failure_some failed found).1
      simp only [List.filterMap_cons, found, fillSlots, failures, ih counted]
      rw [← isBase]
    | none =>
      rw [open_positions_open failed _ found] at counted
      cases outputs with
      | nil => cases counted
      | cons output rest =>
        simp only [List.filterMap_cons, found, fillSlots, failures, ih (Nat.succ.inj counted)]

theorem found_failures_perm {count : Nat} (distinct : (failed.map Prod.fst).Nodup)
    (inside : ∀ failure ∈ failed, failure.1 < count) :
    List.Perm ((List.range count).filterMap fun position =>
      failed.find? fun failure => failure.1 = position) failed := by
  have key : ∀ failure ∈ failed,
      (failed.find? fun other => other.1 = failure.1) = some failure := by
    intro failure member
    cases found : failed.find? fun other => other.1 = failure.1 with
    | none => exact absurd (List.mem_map_of_mem member) (find_failure_none failed found)
    | some other =>
      obtain ⟨same, isOther⟩ := find_failure_some failed found
      rw [List.inj_on_of_nodup_map distinct isOther member same]
  refine (List.perm_ext_iff_of_nodup ?_ distinct.of_map).mpr fun failure => ?_
  · refine List.Nodup.filterMap (fun first second failure atFirst atSecond => ?_) List.nodup_range
    rw [← (find_failure_some failed atFirst).1, ← (find_failure_some failed atSecond).1]
  · rw [List.mem_filterMap]
    constructor
    · rintro ⟨position, -, found⟩
      exact (find_failure_some failed found).2
    · intro member
      exact ⟨failure.1, List.mem_range.mpr (inside failure member), key failure member⟩

theorem open_positions_length {count : Nat} (distinct : (failed.map Prod.fst).Nodup)
    (inside : ∀ failure ∈ failed, failure.1 < count) :
    (openPositions failed (List.range count)).length + failed.length = count := by
  have closed : List.Perm ((List.range count).filter fun position => position ∈ failed.map Prod.fst)
      (failed.map Prod.fst) := by
    refine (List.perm_ext_iff_of_nodup (List.nodup_range.filter _) distinct).mpr fun position => ?_
    rw [List.mem_filter, decide_eq_true_iff, List.mem_range, and_iff_right_iff_imp]
    intro member
    obtain ⟨failure, listed, rfl⟩ := List.mem_map.mp member
    exact inside failure listed
  have parts := List.length_eq_length_filter_add (l := List.range count)
    fun position => decide (position ∈ failed.map Prod.fst)
  have length := closed.length_eq
  simp only [List.length_range, List.length_map] at parts length
  simp only [openPositions, decide_not]
  omega

end

end Foundation
