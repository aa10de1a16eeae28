import Panoptikon.Foundation.Scaling
import Panoptikon.Visuals.GridLadder

/-!
# The geometry of a tier

Of a picture whose short side is over the tier the crop keeps twice the short side, and of
a smaller one twice the tier; what is kept is scaled so that the short side fits.
-/

namespace Panoptikon.Visuals

open Foundation

/-- How much of the long side is kept. -/
def cropLong (short long tier : Nat) : Nat := min long (2 * max short tier)

/-- How long what is kept comes out. -/
def outLong (short long tier : Nat) : Nat := halfUp (cropLong short long tier * min short tier) short

def planned (width height tier : Nat) : TierPlan :=
  if width ≤ height then
    ⟨0, 0, width, cropLong width height tier, min width tier, outLong width height tier⟩
  else
    ⟨(width - cropLong height width tier) / 2, 0, cropLong height width tier, height, outLong height width tier,
      min height tier⟩

section

variable {short long tier : Nat}

theorem cap_of_crop (positive : 0 < short) (tierPos : 0 < tier) :
    2 * tier * short / min short tier = 2 * max short tier := by
  rcases Nat.le_total short tier with under | above
  · rw [Nat.min_eq_left under, Nat.max_eq_right under, Nat.mul_div_cancel _ positive]
  · rw [Nat.min_eq_right above, Nat.max_eq_left above, Nat.mul_right_comm, Nat.mul_div_cancel _ tierPos]

theorem crop_long_le (short long tier : Nat) : cropLong short long tier ≤ long := Nat.min_le_left _ _

theorem short_le_crop_long (ordered : short ≤ long) : short ≤ cropLong short long tier := by
  rw [cropLong]
  omega

theorem crop_long_pos (positive : 0 < short) (ordered : short ≤ long) : 0 < cropLong short long tier :=
  Nat.lt_of_lt_of_le positive (short_le_crop_long ordered)

theorem out_long_under (positive : 0 < short) (under : short ≤ tier) :
    outLong short long tier = cropLong short long tier := by
  rw [outLong, Nat.min_eq_left under, half_up_exact _ positive]

theorem out_long_le_crop (positive : 0 < short) : outLong short long tier ≤ cropLong short long tier :=
  half_up_le positive (Nat.mul_le_mul_left _ (Nat.min_le_left _ _))

theorem out_long_le_tier (positive : 0 < short) : outLong short long tier ≤ 2 * tier := by
  rcases Nat.le_total short tier with under | above
  · rw [out_long_under positive under, cropLong, Nat.max_eq_right under]
    exact Nat.min_le_right _ _
  · apply half_up_le positive
    rw [Nat.min_eq_right above, cropLong, Nat.max_eq_left above, Nat.mul_right_comm]
    exact Nat.mul_le_mul_right _ (Nat.min_le_right _ _)

theorem out_short_le_long (positive : 0 < short) (ordered : short ≤ long) :
    min short tier ≤ outLong short long tier := by
  apply le_half_up positive
  rw [Nat.mul_comm]
  exact Nat.mul_le_mul_right _ (short_le_crop_long ordered)

theorem out_long_near (positive : 0 < short) :
    |(outLong short long tier : ℚ) - cropLong short long tier / short * (min short tier : Nat)| ≤ 1 / 2 := by
  have near := @half_up_near (cropLong short long tier * min short tier) short positive
  have same : ((cropLong short long tier * min short tier : Nat) : ℚ) / short =
      cropLong short long tier / short * (min short tier : Nat) := by
    rw [Nat.cast_mul, div_mul_eq_mul_div]
  rw [same] at near
  exact near

end

theorem round_div_eq {numerator denominator : Nat} (positive : 0 < denominator) (small : numerator < 2 ^ 60)
    (word : denominator < 2 ^ 32) (fits : halfUp numerator denominator < 2 ^ 32) :
    roundDiv numerator denominator = some (halfUp numerator denominator) := by
  have double : u64 (numerator * 2) = some (numerator * 2) := if_pos (by omega)
  have sum : u64 (numerator * 2 + denominator) = some (numerator * 2 + denominator) := if_pos (by omega)
  have twice : u64 (denominator * 2) = some (denominator * 2) := if_pos (by omega)
  have divided : quotient (numerator * 2 + denominator) (denominator * 2) = some (halfUp numerator denominator) :=
    if_neg (by omega)
  rw [roundDiv, double]
  simp only [bind, Option.bind]
  rw [sum]
  simp only
  rw [twice]
  simp only
  rw [divided]
  exact congrArg some (Nat.mod_eq_of_lt fits)

/-- A picture, whose sides are words. -/
structure Picture where
  width : Nat
  height : Nat
  widthPos : 0 < width
  heightPos : 0 < height
  widthWord : width < 2 ^ 32
  heightWord : height < 2 ^ 32

section

variable {short long tier : Nat}

theorem cap_in_word (small : tier ≤ 2 ^ 20) : u64 (gridMaxWholeAspect * tier) = some (2 * tier) :=
  if_pos (by rw [gridMaxWholeAspect]; omega)

theorem product_in_word (word : short < 2 ^ 32) (small : tier ≤ 2 ^ 20) :
    u64 (2 * tier * short) = some (2 * tier * short) := by
  have below : 2 * tier * short ≤ 2 ^ 21 * 2 ^ 32 := Nat.mul_le_mul (by omega) (Nat.le_of_lt word)
  exact if_pos (by omega)

theorem crop_cap (positive : 0 < short) (tierPos : 0 < tier) :
    quotient (2 * tier * short) (min short tier) = some (2 * max short tier) := by
  rw [quotient, if_neg (by omega), cap_of_crop positive tierPos]

theorem crop_as_word (positive : 0 < short) (ordered : short ≤ long) (word : long < 2 ^ 32) :
    asU32 (max (min long (2 * max short tier)) 1) = cropLong short long tier := by
  have one : 1 ≤ min long (2 * max short tier) := crop_long_pos positive ordered
  rw [Nat.max_eq_left one, asU32]
  exact Nat.mod_eq_of_lt (Nat.lt_of_le_of_lt (Nat.min_le_left _ _) word)

theorem scaled_lt (word : long < 2 ^ 32) (small : tier ≤ 2 ^ 20) :
    cropLong short long tier * min short tier ≤ 2 ^ 52 := by
  have product : cropLong short long tier * min short tier ≤ 2 ^ 32 * 2 ^ 20 :=
    Nat.mul_le_mul (Nat.le_of_lt (Nat.lt_of_le_of_lt (crop_long_le short long tier) word))
      (Nat.le_trans (Nat.min_le_right _ _) small)
  omega

theorem scaled_in_word (word : long < 2 ^ 32) (small : tier ≤ 2 ^ 20) :
    u64 (cropLong short long tier * min short tier) = some (cropLong short long tier * min short tier) := by
  have below := @scaled_lt short long tier word small
  exact if_pos (by omega)

theorem rounded_in_word (positive : 0 < short) (ordered : short ≤ long) (word : long < 2 ^ 32)
    (small : tier ≤ 2 ^ 20) :
    roundDiv (cropLong short long tier * min short tier) short = some (outLong short long tier) := by
  have below := @scaled_lt short long tier word small
  have out := Nat.le_trans (@out_long_le_crop short long tier positive) (crop_long_le short long tier)
  exact round_div_eq positive (by omega) (by omega) (Nat.lt_of_le_of_lt out word)

theorem out_long_pos (positive : 0 < short) (ordered : short ≤ long) (tierPos : 0 < tier) :
    0 < outLong short long tier :=
  Nat.lt_of_lt_of_le (Nat.lt_min.mpr ⟨positive, tierPos⟩) (out_short_le_long positive ordered)

end

variable (picture : Picture)

theorem tier_plan_eq {tier : Nat} (tierPos : 0 < tier) (small : tier ≤ 2 ^ 20) :
    tierPlan picture.width picture.height tier = some (planned picture.width picture.height tier) := by
  obtain ⟨width, height, widthPos, heightPos, widthWord, heightWord⟩ := picture
  have nonzero : ¬(width = 0 ∨ height = 0 ∨ tier = 0) := by omega
  have sameWidth : max width 1 = width := Nat.max_eq_left widthPos
  have sameHeight : max height 1 = height := Nat.max_eq_left heightPos
  dsimp only
  rw [tierPlan, if_neg nonzero, planned]
  simp only [sameWidth, sameHeight, cap_in_word small, bind, Option.bind]
  by_cases tall : width ≤ height
  · simp only [if_pos tall, product_in_word widthWord small, crop_cap widthPos tierPos,
      crop_as_word widthPos tall heightWord, scaled_in_word heightWord small,
      rounded_in_word widthPos tall heightWord small]
    rw [Nat.max_eq_left (out_long_pos widthPos tall tierPos)]
    rfl
  · have wide : height ≤ width := Nat.le_of_not_le tall
    have rest : minus width (cropLong height width tier) = some (width - cropLong height width tier) :=
      if_pos (crop_long_le height width tier)
    simp only [if_neg tall, product_in_word heightWord small, crop_cap heightPos tierPos,
      crop_as_word heightPos wide widthWord, scaled_in_word widthWord small,
      rounded_in_word heightPos wide widthWord small, rest]
    rw [Nat.max_eq_left (out_long_pos heightPos wide tierPos)]
    rfl

theorem planned_tall {width height : Nat} (tall : width ≤ height) (tier : Nat) : planned width height tier =
      ⟨0, 0, width, cropLong width height tier, min width tier, outLong width height tier⟩ :=
  if_pos tall

theorem planned_wide {width height : Nat} (positive : 0 < height) (wide : height ≤ width) (tier : Nat) :
    planned width height tier =
      ⟨(width - cropLong height width tier) / 2, 0, cropLong height width tier, height, outLong height width tier,
        min height tier⟩ := by
  rcases Nat.eq_or_lt_of_le wide with square | wider
  · subst square
    have crop : cropLong height height tier = height := by
      rw [cropLong]
      omega
    have out : outLong height height tier = min height tier := by
      rw [outLong, crop, Nat.mul_comm, half_up_exact _ positive]
    rw [planned_tall (Nat.le_refl height), crop, out, Nat.sub_self]
  · exact if_neg (by omega)

theorem planned_sides {tier : Nat} (tierPos : 0 < tier) :
    (0 < (planned picture.width picture.height tier).width ∧ 0 < (planned picture.width picture.height tier).height) ∧
      (planned picture.width picture.height tier).width ≤ (planned picture.width picture.height tier).cropWidth ∧
      (planned picture.width picture.height tier).height ≤ (planned picture.width picture.height tier).cropHeight ∧
      (planned picture.width picture.height tier).cropX + (planned picture.width picture.height tier).cropWidth ≤
        picture.width ∧
      (planned picture.width picture.height tier).cropY + (planned picture.width picture.height tier).cropHeight ≤
        picture.height := by
  rcases Nat.le_total picture.width picture.height with tall | wide
  · rw [planned_tall tall]
    refine ⟨⟨Nat.lt_min.mpr ⟨picture.widthPos, tierPos⟩, out_long_pos picture.widthPos tall tierPos⟩,
      Nat.min_le_left _ _, out_long_le_crop picture.widthPos, ?_, ?_⟩
    · exact Nat.le_of_eq (Nat.zero_add _)
    · rw [Nat.zero_add]
      exact crop_long_le _ _ _
  · have inside := crop_long_le picture.height picture.width tier
    rw [planned_wide picture.heightPos wide]
    refine ⟨⟨out_long_pos picture.heightPos wide tierPos, Nat.lt_min.mpr ⟨picture.heightPos, tierPos⟩⟩,
      out_long_le_crop picture.heightPos, Nat.min_le_left _ _, ?_, ?_⟩
    · dsimp only
      omega
    · exact Nat.le_of_eq (Nat.zero_add _)

def Picture.rendition (picture : Picture) (tier : Nat) (tierPos : 0 < tier) : Picture where
  width := (planned picture.width picture.height tier).width
  height := (planned picture.width picture.height tier).height
  widthPos := (planned_sides picture tierPos).1.1
  heightPos := (planned_sides picture tierPos).1.2
  widthWord := by
    have sides := planned_sides picture tierPos
    have word := picture.widthWord
    omega
  heightWord := by
    have sides := planned_sides picture tierPos
    have word := picture.heightWord
    omega

/-- What a plan promises for a picture at a tier's cap. -/
structure WellCut (picture : Picture) (tier : Nat) (plan : TierPlan) : Prop where
  insideAcross : plan.cropX + plan.cropWidth ≤ picture.width
  insideDown : plan.cropY + plan.cropHeight ≤ picture.height
  /-- A tall picture keeps all of its width, and its top. -/
  topStrip : picture.width ≤ picture.height → plan.cropX = 0 ∧ plan.cropWidth = picture.width ∧ plan.cropY = 0
  /-- A wide one keeps all of its height, and its middle. -/
  centredBand : picture.height < picture.width →
    plan.cropY = 0 ∧ plan.cropHeight = picture.height ∧ plan.cropX = (picture.width - plan.cropWidth) / 2
  shrinksAcross : plan.width ≤ plan.cropWidth
  shrinksDown : plan.height ≤ plan.cropHeight
  shortSide : min plan.width plan.height = min (min picture.width picture.height) tier
  longSide : max plan.width plan.height ≤ 2 * tier
  aspectAcross : |(plan.width : ℚ) -
    plan.cropWidth * (min (min picture.width picture.height) tier : Nat) / (min picture.width picture.height : Nat)| < 1
  aspectDown : |(plan.height : ℚ) -
    plan.cropHeight * (min (min picture.width picture.height) tier : Nat) / (min picture.width picture.height : Nat)| < 1

theorem short_side_exact {short : Nat} (positive : 0 < short) (out : Nat) :
    |(out : ℚ) - short * out / short| < 1 := by
  have nonzero : (short : ℚ) ≠ 0 := Nat.cast_ne_zero.mpr (Nat.pos_iff_ne_zero.mp positive)
  rw [mul_div_cancel_left₀ _ nonzero, sub_self, abs_zero]
  exact one_pos

theorem long_side_near {short : Nat} (positive : 0 < short) (long tier : Nat) :
    |(outLong short long tier : ℚ) - cropLong short long tier * (min short tier : Nat) / short| < 1 := by
  have near := @out_long_near short long tier positive
  rw [← div_mul_eq_mul_div]
  linarith

theorem planned_well_cut {tier : Nat} (tierPos : 0 < tier) :
    WellCut picture tier (planned picture.width picture.height tier) := by
  obtain ⟨-, shrinksAcross, shrinksDown, insideAcross, insideDown⟩ := planned_sides picture tierPos
  have widthPos := picture.widthPos
  have heightPos := picture.heightPos
  rcases Nat.le_total picture.width picture.height with tall | wide
  · have short : min picture.width picture.height = picture.width := Nat.min_eq_left tall
    have ordered := @out_short_le_long picture.width picture.height tier widthPos tall
    have longSide := @out_long_le_tier picture.width picture.height tier widthPos
    have under := Nat.min_le_right picture.width tier
    refine ⟨insideAcross, insideDown, ?_, ?_, shrinksAcross, shrinksDown, ?_, ?_, ?_, ?_⟩
    · intro _
      rw [planned_tall tall]
      exact ⟨rfl, rfl, rfl⟩
    · intro wide
      omega
    · rw [planned_tall tall, short]
      exact Nat.min_eq_left ordered
    · rw [planned_tall tall]
      exact Nat.max_le.mpr ⟨by dsimp only; omega, longSide⟩
    · rw [planned_tall tall, short]
      exact short_side_exact widthPos _
    · rw [planned_tall tall, short]
      exact long_side_near widthPos _ _
  · have short : min picture.width picture.height = picture.height := Nat.min_eq_right wide
    have ordered := @out_short_le_long picture.height picture.width tier heightPos wide
    have longSide := @out_long_le_tier picture.height picture.width tier heightPos
    have under := Nat.min_le_right picture.height tier
    refine ⟨insideAcross, insideDown, ?_, ?_, shrinksAcross, shrinksDown, ?_, ?_, ?_, ?_⟩
    · intro tall
      rw [planned_tall tall]
      exact ⟨rfl, rfl, rfl⟩
    · intro _
      rw [planned_wide heightPos wide]
      exact ⟨rfl, rfl, rfl⟩
    · rw [planned_wide heightPos wide, short]
      exact Nat.min_eq_right ordered
    · rw [planned_wide heightPos wide]
      exact Nat.max_le.mpr ⟨longSide, by dsimp only; omega⟩
    · rw [planned_wide heightPos wide, short]
      exact long_side_near heightPos _ _
    · rw [planned_wide heightPos wide, short]
      exact short_side_exact heightPos _

end Panoptikon.Visuals
