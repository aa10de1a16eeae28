import Mathlib.Algebra.GroupWithZero.Nat
import Mathlib.Order.Lattice
import Mathlib.Algebra.BigOperators.Group.List.Basic
import Mathlib.Data.List.Nodup

/-!
# Eviction within a budget

Items of a store have a size and a rank. While the store exceeds its budget, the
evictable item of the lowest rank is removed. A run is any number of such removals.
-/

namespace Foundation.Eviction

variable {Item Key Rank : Type} [DecidableEq Key] [LinearOrder Rank]

structure Policy (Item Key Rank : Type) where
  key : Item → Key
  size : Item → Nat
  rank : Item → Rank
  Evictable : Item → Prop

namespace Policy

variable (policy : Policy Item Key Rank)

def total (items : List Item) : Nat := (items.map policy.size).sum

def without (items : List Item) (victim : Item) : List Item :=
  items.filter fun item => policy.key item ≠ policy.key victim

/-- What is left when the victims are removed. -/
def left (items victims : List Item) : List Item := victims.foldl policy.without items

def KeysDistinct (items : List Item) : Prop := (items.map policy.key).Nodup

/-- The removal of one victim from a store that exceeds its budget. -/
structure Justified (budget : Nat) (items : List Item) (victim : Item) : Prop where
  listed : victim ∈ items
  evictable : policy.Evictable victim
  lowest : ∀ other ∈ items, policy.Evictable other → policy.rank victim ≤ policy.rank other
  needed : budget < policy.total items

/-- The victims in the order of their removal. -/
inductive Run (budget : Nat) : List Item → List Item → Prop
  | done (items : List Item) : Run budget items []
  | evict {items later : List Item} {victim : Item} (justified : policy.Justified budget items victim)
      (run : Run budget (policy.without items victim) later) : Run budget items (victim :: later)

end Policy

variable {policy : Policy Item Key Rank} {budget : Nat} {items : List Item}

omit [LinearOrder Rank] in
theorem mem_without {item victim : Item} :
    item ∈ policy.without items victim ↔ item ∈ items ∧ policy.key item ≠ policy.key victim := by
  rw [Policy.without, List.mem_filter, decide_eq_true_iff]

omit [LinearOrder Rank] in
theorem total_without (distinct : policy.KeysDistinct items) {victim : Item} (listed : victim ∈ items) :
    policy.total items = policy.size victim + policy.total (policy.without items victim) := by
  obtain ⟨before, after, rfl⟩ := List.append_of_mem listed
  rw [Policy.KeysDistinct, List.map_append, List.map_cons, List.nodup_append, List.nodup_cons] at distinct
  have keepsBefore : ∀ item ∈ before, policy.key item ≠ policy.key victim := by
    intro item member
    exact distinct.2.2 _ (List.mem_map_of_mem member) _ List.mem_cons_self
  have keepsAfter : ∀ item ∈ after, policy.key item ≠ policy.key victim := by
    intro item member same
    exact distinct.2.1.1 (same ▸ List.mem_map_of_mem member)
  have kept : policy.without (before ++ victim :: after) victim = before ++ after := by
    rw [Policy.without, List.filter_append, List.filter_cons_of_neg (by simp),
      List.filter_eq_self.mpr fun item member => decide_eq_true (keepsBefore item member),
      List.filter_eq_self.mpr fun item member => decide_eq_true (keepsAfter item member)]
  rw [kept, Policy.total, Policy.total, List.map_append, List.map_cons, List.sum_append, List.sum_cons,
    List.map_append, List.sum_append]
  omega

omit [LinearOrder Rank] in
theorem mem_left {victims : List Item} {item : Item} : item ∈ policy.left items victims ↔
      item ∈ items ∧ ∀ victim ∈ victims, policy.key item ≠ policy.key victim := by
  induction victims generalizing items with
  | nil => simp [Policy.left]
  | cons victim later ih =>
    have unfolded : policy.left items (victim :: later) = policy.left (policy.without items victim) later := rfl
    rw [unfolded, ih, mem_without, List.forall_mem_cons, and_assoc]

omit [LinearOrder Rank] in
theorem left_append (victims later : List Item) :
    policy.left items (victims ++ later) = policy.left (policy.left items victims) later :=
  List.foldl_append

namespace Policy.Run

variable {victims : List Item}

theorem append {later : List Item} (run : policy.Run budget items victims)
    (rest : policy.Run budget (policy.left items victims) later) : policy.Run budget items (victims ++ later) := by
  induction run with
  | done items => exact rest
  | evict justified _ ih => exact .evict justified (ih rest)

/-- Every removal of a run is justified by what the removals before it have left. -/
theorem justified (run : policy.Run budget items victims) {before after : List Item} {victim : Item}
    (split : victims = before ++ victim :: after) : policy.Justified budget (policy.left items before) victim := by
  induction run generalizing before with
  | done items => exact absurd split (by simp)
  | evict justified _ ih =>
    cases before with
    | nil =>
      rw [List.nil_append] at split
      cases split
      exact justified
    | cons first others =>
      rw [List.cons_append] at split
      injection split with same rest
      subst same
      exact ih rest

theorem victim_evictable (run : policy.Run budget items victims) :
    ∀ victim ∈ victims, victim ∈ items ∧ policy.Evictable victim := by
  intro victim member
  obtain ⟨before, after, split⟩ := List.append_of_mem member
  have removal := run.justified split
  exact ⟨(mem_left.mp removal.listed).1, removal.evictable⟩

theorem keeps (run : policy.Run budget items victims) (distinct : policy.KeysDistinct items) {item : Item}
    (listed : item ∈ items) (kept : ¬policy.Evictable item) : item ∈ policy.left items victims := by
  rw [mem_left]
  refine ⟨listed, ?_⟩
  intro victim member same
  have removed := run.victim_evictable victim member
  have isVictim : item = victim := List.inj_on_of_nodup_map distinct listed removed.1 same
  rw [isVictim] at kept
  exact kept removed.2

end Policy.Run

end Foundation.Eviction
