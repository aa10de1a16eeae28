import Mathlib.Algebra.Order.AbsoluteValue.Basic
import Mathlib.Algebra.Order.Field.Basic
import Mathlib.Tactic.FieldSimp
import Mathlib.Tactic.Linarith
import Mathlib.Tactic.Ring

/-!
# Rescaling and cropping

The integer next to a quotient, the upper one where two are as near: a length that is
rescaled again and again stays within one of what it is rescaled from. A place in a
rendition stands for a place in the picture it was made from: each axis is cut to a stretch
and rescaled, and a rendition of a rendition is had by putting the two together.
-/

namespace Foundation

def halfUp (numerator denominator : Nat) : Nat := (numerator * 2 + denominator) / (denominator * 2)

section

variable {numerator denominator : Nat}

theorem half_up_le {bound : Nat} (positive : 0 < denominator) (below : numerator ≤ bound * denominator) :
    halfUp numerator denominator ≤ bound := by
  rw [halfUp, ← Nat.lt_succ_iff, Nat.div_lt_iff_lt_mul (Nat.mul_pos positive (by decide))]
  have double : (bound + 1) * (denominator * 2) = bound * denominator * 2 + denominator * 2 := by ring
  rw [Nat.succ_eq_add_one, double]
  omega

theorem le_half_up {bound : Nat} (positive : 0 < denominator) (above : bound * denominator ≤ numerator) :
    bound ≤ halfUp numerator denominator := by
  rw [halfUp, Nat.le_div_iff_mul_le (Nat.mul_pos positive (by decide))]
  have double : bound * (denominator * 2) = bound * denominator * 2 := by ring
  omega

theorem half_up_exact (whole : Nat) (positive : 0 < denominator) : halfUp (whole * denominator) denominator = whole :=
  Nat.le_antisymm (half_up_le positive (Nat.le_refl _)) (le_half_up positive (Nat.le_refl _))

theorem half_up_near (positive : 0 < denominator) :
    |(halfUp numerator denominator : ℚ) - numerator / denominator| ≤ 1 / 2 := by
  have quotient := Nat.div_add_mod (numerator * 2 + denominator) (denominator * 2)
  have small := Nat.mod_lt (numerator * 2 + denominator) (Nat.mul_pos positive (by decide : 0 < 2))
  change denominator * 2 * halfUp numerator denominator + _ = _ at quotient
  have positiveQ : (0 : ℚ) < denominator := Nat.cast_pos.mpr positive
  have lower : denominator * 2 * halfUp numerator denominator ≤ numerator * 2 + denominator := by omega
  have upper : numerator * 2 + denominator < denominator * 2 * halfUp numerator denominator + denominator * 2 := by
    omega
  have lowerQ : (denominator : ℚ) * 2 * halfUp numerator denominator ≤ numerator * 2 + denominator := by
    exact_mod_cast lower
  have upperQ : (numerator : ℚ) * 2 + denominator <
      denominator * 2 * halfUp numerator denominator + denominator * 2 := by exact_mod_cast upper
  have cancel : (numerator : ℚ) / denominator * denominator = numerator := div_mul_cancel₀ _ (ne_of_gt positiveQ)
  rw [abs_le]
  constructor
  · nlinarith
  · nlinarith

/-- A length that is less than one off at a scale is less than one off at half the scale, and below. -/
theorem rescaled_near {ratio : ℚ} {length scale smaller : Nat} (near : |(length : ℚ) - ratio * scale| < 1)
    (positive : 0 < scale) (half : 2 * smaller ≤ scale) :
    |(halfUp (length * smaller) scale : ℚ) - ratio * smaller| < 1 := by
  have rounded := @half_up_near (length * smaller) scale positive
  have positiveQ : (0 : ℚ) < scale := Nat.cast_pos.mpr positive
  have factor : (smaller : ℚ) / scale ≤ 1 / 2 := by
    rw [div_le_div_iff₀ positiveQ (by norm_num)]
    have halfQ : (2 : ℚ) * smaller ≤ scale := by exact_mod_cast half
    linarith
  have nonnegative : (0 : ℚ) ≤ (smaller : ℚ) / scale := div_nonneg (Nat.cast_nonneg _) (le_of_lt positiveQ)
  have shifted : ((length * smaller : Nat) : ℚ) / scale - ratio * smaller =
      (length - ratio * scale) * (smaller / scale) := by
    rw [Nat.cast_mul]
    field_simp
  have scaled : |((length * smaller : Nat) : ℚ) / scale - ratio * smaller| < 1 / 2 := by
    rw [shifted, abs_mul, abs_of_nonneg nonnegative]
    nlinarith [abs_nonneg ((length : ℚ) - ratio * scale)]
  have split : (halfUp (length * smaller) scale : ℚ) - ratio * smaller =
      ((halfUp (length * smaller) scale : ℚ) - ((length * smaller : Nat) : ℚ) / scale) +
        (((length * smaller : Nat) : ℚ) / scale - ratio * smaller) := by ring
  rw [split]
  have together := abs_add_le ((halfUp (length * smaller) scale : ℚ) - ((length * smaller : Nat) : ℚ) / scale)
    (((length * smaller : Nat) : ℚ) / scale - ratio * smaller)
  linarith

end

end Foundation

namespace Foundation

/-- A place stands for the offset and so many times itself. -/
@[ext] structure Axis where
  offset : ℚ
  scale : ℚ

namespace Axis

def whole : Axis := ⟨0, 1⟩

/-- A stretch that is shown over a length. -/
def crop (start length shown : ℚ) : Axis := ⟨start, length / shown⟩

/-- What a place of the inner rendition stands for in the picture of the outer one. -/
def within (outer inner : Axis) : Axis := ⟨outer.offset + outer.scale * inner.offset, outer.scale * inner.scale⟩

/-- Where the stretch that a length shows begins, and how long it is. -/
def covers (axis : Axis) (shown : ℚ) : ℚ × ℚ := (axis.offset, axis.scale * shown)

theorem crop_covers {shown : ℚ} (some : shown ≠ 0) (start length : ℚ) :
    (crop start length shown).covers shown = (start, length) := by
  rw [covers, crop, div_mul_cancel₀ length some]

theorem crop_within_crop {shown outerLength : ℚ} (some : outerLength ≠ 0) (outerStart start length : ℚ) :
    (crop outerStart outerLength outerLength).within (crop start length shown) =
      crop (outerStart + start) length shown := by
  rw [within, crop, crop, crop, div_self some, one_mul, one_mul]

theorem all_within_crop {shown again : ℚ} (some : shown ≠ 0) (start length : ℚ) :
    (crop start length shown).within (crop 0 shown again) = crop start length again := by
  rw [within, crop, crop, crop, mul_zero, add_zero, div_mul_div_cancel₀ some]

end Axis

/-- What a rendition shows of a picture, across and down. -/
@[ext] structure View where
  across : Axis
  down : Axis

namespace View

def whole : View := ⟨Axis.whole, Axis.whole⟩

def within (outer inner : View) : View := ⟨outer.across.within inner.across, outer.down.within inner.down⟩

end View

end Foundation
