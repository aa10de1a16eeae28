import Mathlib.Data.List.Sigma
import Mathlib.Data.Prod.Lex
import Mathlib.Order.Std
import Panoptikon.Foundation.Sql.Select

/-!
# Window partitions

The orders of values and of sort keys are total preorders, so every partition of a
window has exactly one first row: there are as many first rows as there are
partitions.
-/

namespace Foundation.Sql

def Value.chars : Value → String
  | .text chars => chars
  | _ => ""

def Value.bytes : Value → List UInt8
  | .blob bytes => bytes
  | _ => []

theorem compare_int_cast (left right : Int) : compare (left : ℚ) (right : ℚ) = compare left right := by
  rcases lt_trichotomy left right with below | same | above
  · rw [compare_lt_iff_lt.mpr below, compare_lt_iff_lt.mpr (by exact_mod_cast below)]
  · rw [compare_eq_iff_eq.mpr same, compare_eq_iff_eq.mpr (by exact_mod_cast same)]
  · rw [compare_gt_iff_gt.mpr above, compare_gt_iff_gt.mpr (by exact_mod_cast above)]

theorem value_order_lex : Value.order =
    compareLex (compareOn Value.classRank)
      (compareLex (compareOn Value.numeric) (compareLex (compareOn Value.chars) (compareOn Value.bytes))) := by
  funext left right
  cases left <;> cases right <;>
    first
      | rfl
      | simp [Value.order, compareLex, compareOn, Value.classRank, Value.numeric, Value.chars, Value.bytes,
          compare_int_cast]

instance : Std.TransCmp Value.order := by
  rw [value_order_lex]
  infer_instance

theorem term_compare_lex (term : OrderTerm) : term.compare =
    compareLex (compareOn fun value : Value => if term.nullsLast ∧ value = .null then 1 else 0)
      fun left right => if term.descending then right.order left else left.order right := by
  funext left right
  have above : compare (1 : Nat) 0 = .gt := rfl
  have below : compare (0 : Nat) 1 = .lt := rfl
  by_cases last : term.nullsLast = true <;> by_cases leftNull : left = .null <;>
    by_cases rightNull : right = .null <;>
    simp [OrderTerm.compare, compareLex, compareOn, last, leftNull, rightNull, above, below]

instance (term : OrderTerm) : Std.TransCmp term.compare := by
  have directed : Std.TransCmp fun left right : Value =>
      if term.descending then right.order left else left.order right := by
    cases term.descending with
    | false => exact (inferInstance : Std.TransCmp Value.order)
    | true => exact (inferInstance : Std.TransCmp fun left right : Value => right.order left)
  rw [term_compare_lex]
  infer_instance

/-- Elements by the sort keys that the terms read from them. -/
def compareBy {Elem : Type} (order : List OrderTerm) (read : Elem → OrderTerm → Value) (left right : Elem) :
    Ordering :=
  compareKeys order (order.map (read left)) (order.map (read right))

theorem compare_read {Elem : Type} (compare : Value → Value → Ordering) [Std.TransCmp compare]
    (read : Elem → Value) : Std.TransCmp fun left right => compare (read left) (read right) where
  eq_swap := Std.OrientedCmp.eq_swap
  isLE_trans := Std.TransCmp.isLE_trans

instance {Elem : Type} (order : List OrderTerm) (read : Elem → OrderTerm → Value) :
    Std.TransCmp (compareBy order read) := by
  induction order with
  | nil => exact { eq_swap := rfl, isLE_trans := fun _ _ => rfl }
  | cons term order ih =>
      have lex : compareBy (term :: order) read = compareLex
          (fun left right => term.compare (read left term) (read right term)) (compareBy order read) := rfl
      have first := compare_read term.compare fun elem : Elem => read elem term
      rw [lex]
      infer_instance

section

variable {Elem Key : Type} [DecidableEq Key]

/-- The one comes before the other, the place deciding between equals. -/
def Precedes (compare : Elem → Elem → Ordering) (left right : Elem × Nat) : Prop :=
  compare left.1 right.1 = .lt ∨ (compare left.1 right.1 = .eq ∧ left.2 < right.2)

instance (compare : Elem → Elem → Ordering) (left right : Elem × Nat) : Decidable (Precedes compare left right) :=
  inferInstanceAs (Decidable (_ ∨ _))

variable {compare : Elem → Elem → Ordering} [Std.TransCmp compare]

theorem not_precedes_self (entry : Elem × Nat) : ¬Precedes compare entry entry := by
  rintro (below | ⟨_, earlier⟩)
  · have same : compare entry.1 entry.1 = .eq := Std.ReflCmp.compare_self
    rw [same] at below
    cases below
  · exact lt_irrefl _ earlier

theorem precedes_trans {first second third : Elem × Nat} (left : Precedes compare first second)
    (right : Precedes compare second third) : Precedes compare first third := by
  rcases left with below | ⟨same, earlier⟩
  · rcases right with further | ⟨level, _⟩
    · exact .inl (Std.TransCmp.lt_trans below further)
    · exact .inl (Std.TransCmp.lt_of_lt_of_eq below level)
  · rcases right with further | ⟨level, later⟩
    · exact .inl (Std.TransCmp.lt_of_eq_of_lt same further)
    · exact .inr ⟨Std.TransCmp.eq_trans same level, lt_trans earlier later⟩

variable (compare)

theorem precedes_or {left right : Elem × Nat} (apart : left.2 ≠ right.2) :
    Precedes compare left right ∨ Precedes compare right left := by
  have swapped : compare right.1 left.1 = (compare left.1 right.1).swap := Std.OrientedCmp.eq_swap
  cases compared : compare left.1 right.1 with
  | lt => exact .inl (.inl compared)
  | gt =>
    rw [compared] at swapped
    exact .inr (.inl swapped)
  | eq =>
    rw [compared] at swapped
    rcases Nat.lt_or_gt_of_ne apart with earlier | later
    · exact .inl (.inr ⟨compared, earlier⟩)
    · exact .inr (.inr ⟨swapped, later⟩)

theorem exists_first {entries : List (Elem × Nat)} (nonempty : entries ≠ []) :
    ∃ least ∈ entries, ∀ other ∈ entries, ¬Precedes compare other least := by
  induction entries with
  | nil => exact absurd rfl nonempty
  | cons entry rest ih =>
    by_cases last : rest = []
    · subst last
      refine ⟨entry, List.mem_cons_self, fun other member => ?_⟩
      rw [List.mem_singleton] at member
      subst member
      exact not_precedes_self other
    · obtain ⟨least, member, isLeast⟩ := ih last
      by_cases before : Precedes compare entry least
      · refine ⟨entry, List.mem_cons_self, fun other isOther => ?_⟩
        rcases List.mem_cons.mp isOther with rfl | later
        · exact not_precedes_self other
        · exact fun earlier => isLeast other later (precedes_trans earlier before)
      · refine ⟨least, List.mem_cons_of_mem _ member, fun other isOther => ?_⟩
        rcases List.mem_cons.mp isOther with rfl | later
        · exact before
        · exact isLeast other later

/-- The entries of one key that no other entry of the key precedes. -/
def firsts (key : Elem → Key) (elems : List Elem) : List (Elem × Nat) :=
  elems.zipIdx.filter fun entry =>
    elems.zipIdx.all fun other => decide (key other.1 = key entry.1 → ¬Precedes compare other entry)

omit [Std.TransCmp compare] in
theorem mem_firsts {key : Elem → Key} {elems : List Elem} {entry : Elem × Nat} :
    entry ∈ firsts compare key elems ↔ entry ∈ elems.zipIdx ∧
      ∀ other ∈ elems.zipIdx, key other.1 = key entry.1 → ¬Precedes compare other entry := by
  rw [firsts, List.mem_filter, List.all_eq_true]
  simp only [decide_eq_true_iff]

theorem firsts_length (key : Elem → Key) (elems : List Elem) :
    (firsts compare key elems).length = (elems.map key).dedup.length := by
  have distinct : ((firsts compare key elems).map fun entry => key entry.1).Nodup := by
    refine List.Nodup.map_on ?_ (List.Nodup.filter _ (List.Nodup.of_map _ (List.nodup_zipIdx_map_snd elems)))
    intro left isLeft right isRight same
    rw [mem_firsts] at isLeft isRight
    by_contra apart
    have places : left.2 ≠ right.2 := by
      intro place
      refine apart (Prod.ext ?_ place)
      have leftAt := List.mem_zipIdx_iff_getElem?.mp isLeft.1
      have rightAt := List.mem_zipIdx_iff_getElem?.mp isRight.1
      rw [place, rightAt] at leftAt
      exact (Option.some.inj leftAt).symm
    rcases precedes_or compare places with before | after
    · exact isRight.2 left isLeft.1 same before
    · exact isLeft.2 right isRight.1 same.symm after
  have members : ∀ value, value ∈ (firsts compare key elems).map (fun entry => key entry.1) ↔
      value ∈ (elems.map key).dedup := by
    intro value
    rw [List.mem_dedup, List.mem_map, List.mem_map]
    constructor
    · rintro ⟨entry, isFirst, rfl⟩
      exact ⟨entry.1, List.fst_mem_of_mem_zipIdx ((mem_firsts compare).mp isFirst).1, rfl⟩
    · rintro ⟨elem, member, rfl⟩
      have some_ : (elems.zipIdx.filter fun other => decide (key other.1 = key elem)) ≠ [] := by
        obtain ⟨place, inside, rfl⟩ := List.mem_iff_getElem.mp member
        refine List.ne_nil_of_mem (a := (elems[place], place)) (List.mem_filter.mpr ⟨?_, by simp⟩)
        exact List.mem_zipIdx_iff_getElem?.mpr (List.getElem?_eq_getElem inside)
      obtain ⟨least, isMember, isLeast⟩ := exists_first compare some_
      rw [List.mem_filter, decide_eq_true_iff] at isMember
      refine ⟨least, (mem_firsts compare).mpr ⟨isMember.1, fun other isOther same => ?_⟩, isMember.2⟩
      exact isLeast other (List.mem_filter.mpr ⟨isOther, by rw [same, isMember.2]; simp⟩)
  rw [← List.length_map (f := fun entry : Elem × Nat => key entry.1)]
  exact ((List.perm_ext_iff_of_nodup distinct (List.nodup_dedup _)).mpr members).length_eq

end

/-- As many rows come first in their window partition as there are partitions. -/
theorem window_firsts (dialect : Dialect) (tables : Tables) (partition : List Expr) (order : List OrderTerm)
    (all : List (List Scope)) :
    (all.zipIdx.filter fun entry =>
        decide (windowPlace dialect tables partition order all entry.2 entry.1 = 1)).length =
      (all.map fun group =>
        partition.map fun expr => (SelectCore.evalGroup dialect tables expr group).canon).dedup.length := by
  let read (group : List Scope) (term : OrderTerm) : Value :=
    SelectCore.evalGroup dialect tables term.expr group
  rw [← firsts_length (compareBy order read), firsts]
  refine congrArg List.length (List.filter_congr fun entry _ => ?_)
  rw [Bool.eq_iff_iff, decide_eq_true_iff, List.all_eq_true, windowPlace, Nat.add_eq_left,
    List.length_eq_zero_iff, List.filter_eq_nil_iff]
  refine forall_congr' fun other => forall_congr' fun _ => ?_
  rw [decide_eq_true_iff, Bool.and_eq_true, decide_eq_true_iff, not_and]
  refine imp_congr_right fun _ => not_congr ?_
  rw [Precedes]
  have compared : compareKeys order (order.map (read other.1)) (order.map (read entry.1)) =
      compareBy order read other.1 entry.1 := rfl
  simp only [read] at compared
  rw [compared]
  cases compareBy order _ other.1 entry.1 <;> simp

end Foundation.Sql
