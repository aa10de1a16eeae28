import Mathlib.Algebra.Order.Ring.Rat
import Mathlib.Data.String.Basic

/-!
# SQL values

The five storage classes, their comparison and three-valued truth. A finite
floating-point number is the rational it denotes; integers and reals compare
by value, texts by code points (which is the order of their UTF-8 bytes), and
values of different classes by class. A comparison with NULL is unknown.
-/

namespace Foundation.Sql

inductive Value where
  | null
  | int (number : Int)
  | real (number : ℚ)
  | text (chars : String)
  | blob (bytes : List UInt8)
deriving DecidableEq

namespace Value

/-- A truth value as SQL stores it. -/
def ofTruth : Option Bool → Value
  | some true => int 1
  | some false => int 0
  | none => null

/-- Truth of a value used as a condition; texts and blobs are never used as one
here and count as false. -/
def truth : Value → Option Bool
  | null => none
  | int number => some (number ≠ 0)
  | real number => some (number ≠ 0)
  | text _ => some false
  | blob _ => some false

@[simp] theorem truth_of_truth (outcome : Option Bool) : (ofTruth outcome).truth = outcome := by
  rcases outcome with _ | _ | _ <;> rfl

def classRank : Value → Nat
  | null => 0
  | int _ => 1
  | real _ => 1
  | text _ => 2
  | blob _ => 3

def numeric : Value → ℚ
  | int number => number
  | real number => number
  | _ => 0

/-- The order of two stored values, NULL first. -/
def order (left right : Value) : Ordering :=
  match left, right with
  | int left, int right => compare left right
  | text left, text right => compare left right
  | blob left, blob right => compare left right
  | left, right =>
      if left.classRank = right.classRank then compare left.numeric right.numeric
      else compare left.classRank right.classRank

end Value

inductive Comparison where
  | eq
  | ne
  | gt
  | gte
  | lt
  | lte

def Comparison.holds : Comparison → Ordering → Bool
  | .eq, ordering => ordering.isEq
  | .ne, ordering => !ordering.isEq
  | .gt, ordering => ordering.isGT
  | .gte, ordering => ordering.isGE
  | .lt, ordering => ordering.isLT
  | .lte, ordering => ordering.isLE

/-- `left op right`, unknown when either side is NULL. -/
def compareValues (comparison : Comparison) (left right : Value) : Option Bool :=
  match left, right with
  | .null, _ => none
  | _, .null => none
  | left, right => some (comparison.holds (left.order right))

/-- One value for every pair of values that compare equal: a whole real is the
integer. Grouping, DISTINCT and UNION tell values apart by it. -/
def Value.canon : Value → Value
  | .real number => if number.den = 1 then .int number.num else .real number
  | value => value

@[simp] theorem Value.canon_int (number : Int) : (Value.int number).canon = .int number := rfl

@[simp] theorem Value.canon_text (chars : String) : (Value.text chars).canon = .text chars := rfl

@[simp] theorem Value.canon_eq_null {value : Value} : value.canon = .null ↔ value = .null := by
  cases value with
  | real number =>
    simp only [Value.canon]
    split <;> simp
  | _ => simp [Value.canon]

theorem Value.canon_int_eq_real {whole : Int} {number : ℚ} :
    (Value.int whole).canon = (Value.real number).canon ↔ (whole : ℚ) = number := by
  simp only [Value.canon]
  split
  · rename_i unit
    rw [Value.int.injEq]
    constructor
    · rintro rfl
      exact Rat.den_eq_one_iff number |>.mp unit
    · rintro rfl
      exact (Rat.num_intCast whole).symm
  · rename_i fraction
    simp only [reduceCtorEq, false_iff]
    rintro rfl
    exact fraction (Rat.den_intCast whole)

theorem Value.canon_real_eq_real {left right : ℚ} :
    (Value.real left).canon = (Value.real right).canon ↔ left = right := by
  constructor
  · simp only [Value.canon]
    split_ifs with first second second
    · intro same
      rw [← (Rat.den_eq_one_iff left).mp first, ← (Rat.den_eq_one_iff right).mp second,
        Value.int.inj same]
    · intro same
      cases same
    · intro same
      cases same
    · exact fun same => Value.real.inj same
  · rintro rfl
    rfl

theorem Value.canon_real_class (number : ℚ) : (∃ whole, (Value.real number).canon = .int whole) ∨
      (Value.real number).canon = .real number := by
  by_cases whole : number.den = 1
  · exact Or.inl ⟨number.num, by simp [Value.canon, whole]⟩
  · exact Or.inr (by simp [Value.canon, whole])

theorem Value.order_is_eq {left right : Value} : (left.order right).isEq = true ↔ left.canon = right.canon := by
  have apart : ∀ (number : ℚ) (other : Value), other.classRank ≠ 1 →
      (Value.real number).canon ≠ other.canon := by
    intro number other notNumber same
    rcases Value.canon_real_class number with ⟨whole, isInt⟩ | isReal
    · cases other <;> simp_all [Value.canon, Value.classRank]
    · cases other <;> simp_all [Value.canon, Value.classRank]
  cases left with
  | real left =>
    cases right with
    | int right =>
      rw [eq_comm (b := (Value.int right).canon), Value.canon_int_eq_real]
      simp [Value.order, Value.classRank, Value.numeric]
      exact eq_comm
    | real right =>
      rw [Value.canon_real_eq_real]
      simp [Value.order, Value.classRank, Value.numeric]
    | null | text | blob =>
      exact iff_of_false (by simp [Value.order, Value.classRank]) (apart left _ (by simp [Value.classRank]))
  | int left =>
    cases right with
    | real right =>
      rw [Value.canon_int_eq_real]
      simp [Value.order, Value.classRank, Value.numeric]
    | _ => simp [Value.order, Value.classRank, Value.canon]
  | null | text _ | blob _ =>
    cases right with
    | real right =>
      exact iff_of_false (by simp [Value.order, Value.classRank])
        (apart right _ (by simp [Value.classRank])).symm
    | _ => simp [Value.order, Value.classRank, Value.canon]

theorem compare_values_eq_iff {left right : Value} : compareValues .eq left right = some true ↔
    left ≠ .null ∧ right ≠ .null ∧ left.canon = right.canon := by
  rw [← Value.order_is_eq]
  cases left <;> cases right <;> simp [compareValues, Comparison.holds]

def andTruth : Option Bool → Option Bool → Option Bool
  | some false, _ => some false
  | _, some false => some false
  | some true, right => right
  | left, some true => left
  | none, none => none

def orTruth : Option Bool → Option Bool → Option Bool
  | some true, _ => some true
  | _, some true => some true
  | some false, right => right
  | left, some false => left
  | none, none => none

def notTruth (operand : Option Bool) : Option Bool := operand.map not

@[simp] theorem and_truth_some (left right : Bool) :
    andTruth (some left) (some right) = some (left && right) := by
  cases left <;> cases right <;> rfl

@[simp] theorem or_truth_some (left right : Bool) :
    orTruth (some left) (some right) = some (left || right) := by
  cases left <;> cases right <;> rfl

@[simp] theorem not_truth_some (operand : Bool) : notTruth (some operand) = some !operand := rfl

@[simp] theorem and_truth_eq_true {left right : Option Bool} :
    andTruth left right = some true ↔ left = some true ∧ right = some true := by
  rcases left with _ | _ | _ <;> rcases right with _ | _ | _ <;> simp [andTruth]

@[simp] theorem or_truth_eq_true {left right : Option Bool} :
    orTruth left right = some true ↔ left = some true ∨ right = some true := by
  rcases left with _ | _ | _ <;> rcases right with _ | _ | _ <;> simp [orTruth]

/-- Membership in a list of values: true on a match, else unknown when a NULL is
in play. -/
def inTruth (value : Value) (members : List Value) : Option Bool :=
  members.foldr (fun member rest => orTruth (compareValues .eq value member) rest) (some false)

variable (comparison : Comparison)

theorem compare_values_int (left right : Int) : compareValues comparison (.int left) (.int right) =
      some (comparison.holds (compare left right)) := rfl

theorem compare_values_text (left right : String) : compareValues comparison (.text left) (.text right) =
      some (comparison.holds (compare left right)) := rfl

theorem compare_values_real (left right : ℚ) : compareValues comparison (.real left) (.real right) =
      some (comparison.holds (compare left right)) := rfl

end Foundation.Sql
