import Mathlib.Algebra.Order.Ring.Int

/-!
# 64-bit arithmetic

Unsigned machine words are natural numbers, signed ones integers; only the operations
whose result depends on the width are spelled out. A saturating operation is the exact
one clamped to the range, so every fact about unsigned words below is a fact about `min`.
A checked operation has no result outside the range, and an unsigned word that does not
fit a signed one is read as negative.
-/

namespace Foundation.Words

/-- The largest 64-bit word. -/
def wordMax : Nat := 2 ^ 64 - 1

def saturatingAdd (left right : Nat) : Nat := min (left + right) wordMax

def saturatingMul (left right : Nat) : Nat := min (left * right) wordMax

theorem saturating_add_of_le {left right : Nat} (fits : left + right ≤ wordMax) :
    saturatingAdd left right = left + right :=
  Nat.min_eq_left fits

theorem saturating_add_le (left right : Nat) : saturatingAdd left right ≤ left + right :=
  Nat.min_le_left _ _

theorem le_saturating_add {left right : Nat} (word : left ≤ wordMax) : left ≤ saturatingAdd left right :=
  Nat.le_min.mpr ⟨Nat.le_add_right _ _, word⟩

theorem saturating_add_le_word (left right : Nat) : saturatingAdd left right ≤ wordMax :=
  Nat.min_le_right _ _

theorem word_le (word : UInt64) : word.toNat ≤ wordMax := by
  have bound := word.toNat_lt
  unfold wordMax
  omega

end Foundation.Words

namespace Foundation.SignedWords

def maxValue : Int := 9223372036854775807

def minValue : Int := -9223372036854775808

def saturate (value : Int) : Int := max minValue (min value maxValue)

def saturatingAdd (left right : Int) : Int := saturate (left + right)

def saturatingMul (left right : Int) : Int := saturate (left * right)

def checked (value : Int) : Option Int := if minValue ≤ value ∧ value ≤ maxValue then some value else none

/-- `as i64` of an unsigned word. -/
def ofWord (word : UInt64) : Int := word.toInt64.toInt

theorem saturate_of_nonneg {value : Int} (nonneg : 0 ≤ value) : saturate value = min value maxValue := by
  unfold saturate minValue maxValue
  omega

theorem checked_inside {value : Int} (low : minValue ≤ value) (high : value ≤ maxValue) :
    checked value = some value := if_pos ⟨low, high⟩

theorem checked_above {value : Int} (high : maxValue < value) : checked value = none := by
  apply if_neg
  intro inside
  omega

theorem int64_range (value : Int64) : minValue ≤ value.toInt ∧ value.toInt ≤ maxValue := by
  have low := value.le_toInt
  have high := value.toInt_lt
  unfold minValue maxValue
  omega

theorem of_word_le (word : UInt64) : ofWord word ≤ word.toNat := by
  change word.toBitVec.toInt ≤ word.toBitVec.toNat
  rw [BitVec.toInt_eq_toNat_cond]
  split
  · exact le_refl _
  · omega

end Foundation.SignedWords
