import Panoptikon.Visuals.TierGeometry

/-!
# Rungs of the grid ladder

A rendition of a rendition shows what a rendition of the picture itself at that tier would
show. On the way down a picture keeps its scale until its short side is over the tier, and
from there on no rung crops any more.
-/

namespace Panoptikon.Visuals

open Foundation

/-- Where the crop begins across, and how wide it is. -/
def TierPlan.across (plan : TierPlan) : ℚ × ℚ := (plan.cropX, plan.cropWidth)

def TierPlan.down (plan : TierPlan) : ℚ × ℚ := (plan.cropY, plan.cropHeight)

def TierPlan.view (plan : TierPlan) : View :=
  ⟨Axis.crop plan.cropX plan.cropWidth plan.width, Axis.crop plan.cropY plan.cropHeight plan.height⟩

/-- What the last of some renditions shows of the picture, each made from the one before it. -/
def shownBy (plans : List TierPlan) : View := plans.foldl (fun view plan => view.within plan.view) View.whole

/-- The place of a rendition on the ladder: its sides, and what they show of the picture's short and long side.
`start` is where a stretch that is kept of the long side begins. -/
structure OnAxes (short long : Nat) (start : Nat → Nat) (tier outShort outLong : Nat) (shortAxis longAxis : Axis) :
    Prop where
  isShort : outShort = min short tier
  under : short ≤ tier → outLong = min long (2 * tier)
  near : tier < short → |(outLong : ℚ) - cropLong short long tier / short * tier| < 1
  ordered : outShort ≤ outLong
  bounded : outLong ≤ 2 * tier
  shortView : shortAxis = Axis.crop 0 short outShort
  longView : longAxis = Axis.crop (start (cropLong short long tier)) (cropLong short long tier) outLong

namespace OnAxes

variable {short long tier smaller outShort outLong : Nat} {start : Nat → Nat} {shortAxis longAxis : Axis}

theorem crop_under (axes : OnAxes short long start tier outShort outLong shortAxis longAxis) (under : short ≤ tier)
    (half : 2 * smaller ≤ tier) : cropLong outShort outLong smaller = cropLong short long smaller := by
  rw [axes.isShort, axes.under under, Nat.min_eq_left under, cropLong, cropLong]
  omega

theorem crop_above (axes : OnAxes short long start tier outShort outLong shortAxis longAxis) (above : tier < short)
    (smaller : Nat) : cropLong outShort outLong smaller = outLong := by
  have bounded := axes.bounded
  rw [axes.isShort, Nat.min_eq_right (Nat.le_of_lt above), cropLong]
  omega

theorem short_pos (axes : OnAxes short long start tier outShort outLong shortAxis longAxis) (positive : 0 < short)
    (tierPos : 0 < tier) : 0 < outShort := by
  rw [axes.isShort]
  exact Nat.lt_min.mpr ⟨positive, tierPos⟩

/-- A rung under the tier of the one before it: the scale is still that of the picture. -/
theorem step_under (axes : OnAxes short long start tier outShort outLong shortAxis longAxis) (positive : 0 < short)
    (half : 2 * smaller ≤ tier) (under : short ≤ tier) (pictured : short ≤ long) {inner : Nat}
    (moved : start (cropLong short long tier) + inner = start (cropLong short long smaller)) :
    OnAxes short long start smaller (min outShort smaller) (Visuals.outLong outShort outLong smaller)
      (shortAxis.within (Axis.crop 0 outShort (min outShort smaller : Nat)))
      (longAxis.within (Axis.crop inner (cropLong outShort outLong smaller)
        (Visuals.outLong outShort outLong smaller))) := by
  have sameShort : outShort = short := by rw [axes.isShort, Nat.min_eq_left under]
  have sameCrop := axes.crop_under under half
  have sameOut : Visuals.outLong outShort outLong smaller = Visuals.outLong short long smaller := by
    rw [Visuals.outLong, sameCrop, sameShort]
    rfl
  have isLong : outLong = cropLong short long tier := by
    rw [axes.under under, cropLong, Nat.max_eq_right under]
  have shortNonzero : (short : ℚ) ≠ 0 := Nat.cast_ne_zero.mpr (Nat.pos_iff_ne_zero.mp positive)
  have longNonzero : (outLong : ℚ) ≠ 0 := by
    rw [isLong]
    exact Nat.cast_ne_zero.mpr (Nat.pos_iff_ne_zero.mp (crop_long_pos positive pictured))
  rw [sameOut, sameCrop, sameShort]
  refine ⟨rfl, ?_, ?_, out_short_le_long positive pictured, out_long_le_tier positive, ?_, ?_⟩
  · intro small
    rw [out_long_under positive small, cropLong, Nat.max_eq_right small]
  · intro large
    have near := @out_long_near short long smaller positive
    rw [Nat.min_eq_right (Nat.le_of_lt large)] at near
    linarith
  · rw [axes.shortView, sameShort]
    exact Axis.all_within_crop shortNonzero _ _
  · rw [axes.longView, ← isLong, Axis.crop_within_crop longNonzero, ← moved, ← isLong, Nat.cast_add]

/-- A rung of a rendition that is scaled already: nothing is cropped any more. -/
theorem step_above (axes : OnAxes short long start tier outShort outLong shortAxis longAxis) (positive : 0 < short)
    (smallerPos : 0 < smaller) (half : 2 * smaller ≤ tier) (above : tier < short) :
    OnAxes short long start smaller (min outShort smaller) (Visuals.outLong outShort outLong smaller)
      (shortAxis.within (Axis.crop 0 outShort (min outShort smaller : Nat)))
      (longAxis.within (Axis.crop 0 (cropLong outShort outLong smaller)
        (Visuals.outLong outShort outLong smaller))) := by
  have tierPos : 0 < tier := by omega
  have isTier : outShort = tier := by rw [axes.isShort, Nat.min_eq_right (Nat.le_of_lt above)]
  have outPos := axes.short_pos positive tierPos
  have ordered := axes.ordered
  have sameCrop := axes.crop_above above smaller
  have samePart : cropLong short long smaller = cropLong short long tier := by
    rw [cropLong, cropLong]
    omega
  have shortNonzero : (outShort : ℚ) ≠ 0 := Nat.cast_ne_zero.mpr (Nat.pos_iff_ne_zero.mp outPos)
  have longNonzero : (outLong : ℚ) ≠ 0 :=
    Nat.cast_ne_zero.mpr (Nat.pos_iff_ne_zero.mp (Nat.lt_of_lt_of_le outPos ordered))
  have rescaled : Visuals.outLong outShort outLong smaller = halfUp (outLong * smaller) tier := by
    rw [Visuals.outLong, sameCrop, isTier, Nat.min_eq_right (by omega)]
  refine ⟨?_, ?_, ?_, out_short_le_long outPos ordered, out_long_le_tier outPos, ?_, ?_⟩
  · rw [isTier]
    omega
  · intro small
    omega
  · intro _
    rw [rescaled, samePart]
    exact rescaled_near (axes.near above) tierPos half
  · rw [axes.shortView]
    exact Axis.all_within_crop shortNonzero _ _
  · rw [axes.longView, sameCrop, samePart]
    exact Axis.all_within_crop longNonzero _ _

theorem top {start : Nat → Nat} (positive : 0 < short) (ordered : short ≤ long) (under : long ≤ tier)
    (all : start long = 0) : OnAxes short long start tier short long Axis.whole Axis.whole := by
  have kept : cropLong short long tier = long := by
    rw [cropLong]
    omega
  have shortNonzero : (short : ℚ) ≠ 0 := Nat.cast_ne_zero.mpr (Nat.pos_iff_ne_zero.mp positive)
  have longNonzero : (long : ℚ) ≠ 0 :=
    Nat.cast_ne_zero.mpr (Nat.pos_iff_ne_zero.mp (Nat.lt_of_lt_of_le positive ordered))
  refine ⟨(Nat.min_eq_left (Nat.le_trans ordered under)).symm, ?_, ?_, ordered, by omega, ?_, ?_⟩
  · intro _
    omega
  · intro above
    omega
  · rw [Axis.crop, div_self shortNonzero]
    rfl
  · rw [kept, all, Axis.crop, div_self longNonzero, Nat.cast_zero]
    rfl

theorem length_near (axes : OnAxes short long start tier outShort outLong shortAxis longAxis) (positive : 0 < short) :
    outLong ≤ Visuals.outLong short long tier + 1 ∧ Visuals.outLong short long tier ≤ outLong + 1 := by
  rcases Nat.lt_or_ge tier short with above | under
  · have near := axes.near above
    have direct := @out_long_near short long tier positive
    rw [Nat.min_eq_right (Nat.le_of_lt above)] at direct
    rw [abs_lt] at near
    rw [abs_le] at direct
    constructor
    · have below : (outLong : ℚ) < (Visuals.outLong short long tier + 2 : Nat) := by
        push_cast
        linarith
      have belowNat : outLong < Visuals.outLong short long tier + 2 := by exact_mod_cast below
      omega
    · have below : (Visuals.outLong short long tier : ℚ) < (outLong + 2 : Nat) := by
        push_cast
        linarith
      have belowNat : Visuals.outLong short long tier < outLong + 2 := by exact_mod_cast below
      omega
  · have same : outLong = Visuals.outLong short long tier := by
      rw [axes.under under, out_long_under positive under, cropLong, Nat.max_eq_right under]
    omega

end OnAxes

/-- A rendition on the ladder of a picture, at a tier. -/
structure OnRung (picture : Picture) (tier width height : Nat) (view : View) : Prop where
  tall : picture.width ≤ picture.height →
    OnAxes picture.width picture.height (fun _ => 0) tier width height view.across view.down
  wide : picture.height < picture.width →
    OnAxes picture.height picture.width (fun kept => (picture.width - kept) / 2) tier height width view.down view.across

namespace OnRung

variable {picture : Picture} {tier smaller width height : Nat} {view : View}

/-- Of a wide picture the bands are even, unless all of the side is kept. -/
theorem band_moved {short long : Nat} (under : short ≤ tier) (half : 2 * smaller ≤ tier) :
    (long - cropLong short long tier) / 2 + (cropLong short long tier - cropLong short long smaller) / 2 =
      (long - cropLong short long smaller) / 2 := by
  rw [cropLong, cropLong]
  omega

theorem down (onRung : OnRung picture tier width height view) (smallerPos : 0 < smaller)
    (half : 2 * smaller ≤ tier) :
    OnRung picture smaller (planned width height smaller).width (planned width height smaller).height
      (view.within (planned width height smaller).view) := by
  have widthPos := picture.widthPos
  have heightPos := picture.heightPos
  constructor
  · intro tall
    have axes := onRung.tall tall
    rw [planned_tall axes.ordered]
    rcases Nat.lt_or_ge tier picture.width with above | under
    · have stepped := axes.step_above widthPos smallerPos half above
      exact stepped
    · exact axes.step_under widthPos half under tall rfl
  · intro wide
    have axes := onRung.wide wide
    have outPos := axes.short_pos heightPos (by omega)
    rw [planned_wide outPos axes.ordered]
    rcases Nat.lt_or_ge tier picture.height with above | under
    · have stepped := axes.step_above heightPos smallerPos half above
      rw [axes.crop_above above] at stepped ⊢
      rw [Nat.sub_self]
      exact stepped
    · have kept := axes.crop_under under half
      have isWidth : width = cropLong picture.height picture.width tier := by
        rw [axes.under under, cropLong, Nat.max_eq_right under]
      have moved := @band_moved tier smaller picture.height picture.width under half
      nth_rewrite 2 [← isWidth] at moved
      apply axes.step_under heightPos half under (Nat.le_of_lt wide)
      rw [kept]
      exact moved

theorem top (picture : Picture) :
    OnRung picture (max (max picture.width picture.height) 2048) picture.width picture.height View.whole := by
  constructor
  · intro tall
    exact OnAxes.top picture.widthPos tall (by omega) rfl
  · intro wide
    apply OnAxes.top picture.heightPos (Nat.le_of_lt wide) (by omega)
    rw [Nat.sub_self]

theorem shows (onRung : OnRung picture tier width height view) (tierPos : 0 < tier) :
    view.across.covers width = (planned picture.width picture.height tier).across ∧
      view.down.covers height = (planned picture.width picture.height tier).down := by
  have widthPos := picture.widthPos
  have heightPos := picture.heightPos
  rcases Nat.lt_or_ge picture.height picture.width with wide | tall
  · have axes := onRung.wide wide
    have outPos := axes.short_pos heightPos tierPos
    have shortNonzero : (height : ℚ) ≠ 0 := Nat.cast_ne_zero.mpr (Nat.pos_iff_ne_zero.mp outPos)
    have longNonzero : (width : ℚ) ≠ 0 :=
      Nat.cast_ne_zero.mpr (Nat.pos_iff_ne_zero.mp (Nat.lt_of_lt_of_le outPos axes.ordered))
    rw [planned_wide heightPos (Nat.le_of_lt wide), axes.shortView, axes.longView, Axis.crop_covers shortNonzero,
      Axis.crop_covers longNonzero]
    exact ⟨rfl, Prod.ext Nat.cast_zero.symm rfl⟩
  · have axes := onRung.tall tall
    have outPos := axes.short_pos widthPos tierPos
    have shortNonzero : (width : ℚ) ≠ 0 := Nat.cast_ne_zero.mpr (Nat.pos_iff_ne_zero.mp outPos)
    have longNonzero : (height : ℚ) ≠ 0 :=
      Nat.cast_ne_zero.mpr (Nat.pos_iff_ne_zero.mp (Nat.lt_of_lt_of_le outPos axes.ordered))
    rw [planned_tall tall, axes.shortView, axes.longView, Axis.crop_covers shortNonzero,
      Axis.crop_covers longNonzero]
    exact ⟨Prod.ext Nat.cast_zero.symm rfl, rfl⟩

theorem sides_near (onRung : OnRung picture tier width height view) :
    (width ≤ (planned picture.width picture.height tier).width + 1 ∧
        (planned picture.width picture.height tier).width ≤ width + 1) ∧
      height ≤ (planned picture.width picture.height tier).height + 1 ∧
        (planned picture.width picture.height tier).height ≤ height + 1 := by
  have widthPos := picture.widthPos
  have heightPos := picture.heightPos
  rcases Nat.lt_or_ge picture.height picture.width with wide | tall
  · have axes := onRung.wide wide
    rw [planned_wide heightPos (Nat.le_of_lt wide)]
    refine ⟨axes.length_near heightPos, ?_⟩
    have same := axes.isShort
    dsimp only
    omega
  · have axes := onRung.tall tall
    rw [planned_tall tall]
    refine ⟨?_, axes.length_near widthPos⟩
    have same := axes.isShort
    dsimp only
    omega

end OnRung

end Panoptikon.Visuals
