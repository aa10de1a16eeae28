import Panoptikon.Visuals.LadderComposition

/-!
# The ladders of a picture

The cascade and the posters climb down the same rungs, each half as large as the one before
it or less; they differ in the rungs that they leave out.
-/

namespace Panoptikon.Visuals

open Foundation

/-- Tiers of which the next one is at most half of the one before. -/
def Halving : Nat → List ThumbnailTier → Prop
  | _, [] => True
  | bound, tier :: later => ∃ cap ∈ tier.shortSide, (0 < cap ∧ cap ≤ 2 ^ 20) ∧ 2 * cap ≤ bound ∧ Halving cap later

theorem Halving.weaken {bound wider : Nat} {tiers : List ThumbnailTier} (halving : Halving bound tiers)
    (wide : bound ≤ wider) : Halving wider tiers := by
  cases tiers with
  | nil => trivial
  | cons tier later =>
    obtain ⟨cap, isCap, small, half, rest⟩ := halving
    exact ⟨cap, isCap, small, Nat.le_trans half wide, rest⟩

theorem grid_halving {bound : Nat} (wide : 2048 ≤ bound) : Halving bound ThumbnailTier.grid :=
  ⟨1024, rfl, ⟨by decide, by decide⟩, wide, 512, rfl, ⟨by decide, by decide⟩, by decide, 256, rfl,
    ⟨by decide, by decide⟩, by decide, trivial⟩

/-- Rungs that are planned one against the other, down from a picture that stands at a tier. -/
inductive Climbs : Picture → Nat → List (ThumbnailTier × TierPlan) → Prop where
  | nil {picture : Picture} {bound : Nat} : Climbs picture bound []
  | cons {picture : Picture} {bound cap : Nat} {tier : ThumbnailTier} {later : List (ThumbnailTier × TierPlan)}
      (isCap : tier.shortSide = some cap) (capPos : 0 < cap) (small : cap ≤ 2 ^ 20) (half : 2 * cap ≤ bound)
      (climbs : Climbs (picture.rendition cap capPos) cap later) :
      Climbs picture bound ((tier, planned picture.width picture.height cap) :: later)

section Climbing

variable (picture : Picture) {cap : Nat} {tier : ThumbnailTier}

theorem within_returns (small : cap ≤ 2 ^ 20) :
    ∃ within, withinGridDimensions picture.width picture.height cap = some within := by
  have widthPos := picture.widthPos
  have heightPos := picture.heightPos
  have widthWord := picture.widthWord
  have heightWord := picture.heightWord
  have nonzero : ¬(picture.width = 0 ∨ picture.height = 0) := by omega
  have shortFits : u64 (min picture.width picture.height * gridDirectDenominator) = some _ :=
    if_pos (by rw [gridDirectDenominator]; omega)
  have longFits : u64 (max picture.width picture.height * gridDirectDenominator) = some _ :=
    if_pos (by rw [gridDirectDenominator]; omega)
  have tierFits : u64 (cap * gridDirectNumerator) = some _ := if_pos (by rw [gridDirectNumerator]; omega)
  have capFits := cap_in_word small
  have twiceFits : u64 (2 * cap * gridDirectNumerator) = some _ := if_pos (by rw [gridDirectNumerator]; omega)
  rw [withinGridDimensions, if_neg nonzero]
  simp only [shortFits, tierFits, longFits, capFits, twiceFits, bind, Option.bind]
  split
  · exact ⟨_, rfl⟩
  · exact ⟨_, rfl⟩

theorem picture_nonzero : ¬(picture.width = 0 ∨ picture.height = 0) := by
  have widthPos := picture.widthPos
  have heightPos := picture.heightPos
  omega

theorem grid_plan_cases (isCap : tier.shortSide = some cap) (capPos : 0 < cap) (small : cap ≤ 2 ^ 20)
    (fileSize : Nat) : gridPlan fileSize picture.width picture.height tier = some none ∨
      gridPlan fileSize picture.width picture.height tier =
        some (some (planned picture.width picture.height cap)) := by
  obtain ⟨within, isWithin⟩ := within_returns picture small
  unfold gridPlan gridServesOriginal
  simp only [isCap, if_neg (picture_nonzero picture), isWithin, tier_plan_eq picture capPos small, bind, Option.bind,
    pure]
  by_cases served : (within && decide (fileSize ≤ gridDirectMaxFileSize)) = true
  · rw [if_pos served]
    exact .inl rfl
  · rw [if_neg served]
    exact .inr rfl

theorem thumbnail_plan_cases (isCap : tier.shortSide = some cap) (capPos : 0 < cap) (small : cap ≤ 2 ^ 20) :
    gridPlanForStoredThumbnail picture.width picture.height tier = some none ∨
      gridPlanForStoredThumbnail picture.width picture.height tier =
        some (some (planned picture.width picture.height cap)) := by
  obtain ⟨within, isWithin⟩ := within_returns picture small
  unfold gridPlanForStoredThumbnail gridServesStoredThumbnail
  simp only [isCap, if_neg (picture_nonzero picture), isWithin, tier_plan_eq picture capPos small, bind, Option.bind,
    pure]
  by_cases served : within = true
  · rw [if_pos served]
    exact .inl rfl
  · rw [if_neg served]
    exact .inr rfl

theorem cascade_plan_cases (isCap : tier.shortSide = some cap) (capPos : 0 < cap) (small : cap ≤ 2 ^ 20)
    (bytes : Option Nat) (later : List ThumbnailTier) :
    cascadeFrom bytes picture.width picture.height (tier :: later) =
        cascadeFrom bytes picture.width picture.height later ∨
      cascadeFrom bytes picture.width picture.height (tier :: later) =
        (cascadeFrom none (picture.rendition cap capPos).width (picture.rendition cap capPos).height later).map
          fun rungs => (tier, planned picture.width picture.height cap) :: rungs := by
  cases bytes with
  | some size =>
    rcases grid_plan_cases picture isCap capPos small size with served | stored
    · left
      simp only [cascadeFrom, served, bind, Option.bind]
    · right
      rw [Option.map_eq_bind]
      simp only [cascadeFrom, stored, bind, Option.bind]
      rfl
  | none =>
    rcases thumbnail_plan_cases picture isCap capPos small with served | stored
    · left
      simp only [cascadeFrom, served, bind, Option.bind]
    · right
      rw [Option.map_eq_bind]
      simp only [cascadeFrom, stored, bind, Option.bind]
      rfl

theorem cascade_climbs {bound : Nat} (tiers : List ThumbnailTier) (halving : Halving bound tiers)
    (bytes : Option Nat) :
    ∃ rungs, cascadeFrom bytes picture.width picture.height tiers = some rungs ∧ Climbs picture bound rungs := by
  induction tiers generalizing picture bound bytes with
  | nil => exact ⟨[], rfl, .nil⟩
  | cons tier later ih =>
    obtain ⟨cap, isCap, ⟨capPos, small⟩, half, rest⟩ := halving
    have wide : cap ≤ bound := by omega
    rcases cascade_plan_cases picture isCap capPos small bytes later with skipped | kept
    · obtain ⟨rungs, isRungs, climbs⟩ := ih picture (rest.weaken wide) bytes
      exact ⟨rungs, skipped.trans isRungs, climbs⟩
    · obtain ⟨rungs, isRungs, climbs⟩ := ih (picture.rendition cap capPos) rest none
      rw [isRungs] at kept
      exact ⟨_, kept, .cons isCap capPos small half climbs⟩

theorem posters_climb {bound : Nat} (tiers : List ThumbnailTier) (halving : Halving bound tiers) (index : Nat) :
    ∃ rungs, posterPlansFrom picture.width picture.height index tiers = some rungs ∧ Climbs picture bound rungs := by
  induction tiers generalizing picture bound index with
  | nil => exact ⟨[], rfl, .nil⟩
  | cons tier later ih =>
    obtain ⟨cap, isCap, ⟨capPos, small⟩, half, rest⟩ := halving
    have wide : cap ≤ bound := by omega
    have isTier : tier.shortSide = some cap := isCap
    rw [posterPlansFrom, isTier]
    simp only [tier_plan_eq picture capPos small, bind, Option.bind]
    split
    · exact ih picture (rest.weaken wide) (index + 1)
    · obtain ⟨rungs, isRungs, climbs⟩ := ih (picture.rendition cap capPos) rest (index + 1)
      refine ⟨_, ?_, .cons isCap capPos small half climbs⟩
      change (posterPlansFrom (picture.rendition cap capPos).width (picture.rendition cap capPos).height (index + 1)
        later).bind _ = _
      rw [isRungs]
      rfl

end Climbing

/-- A rung, made from what the rungs before it come out as: it shows what a plan of the picture itself would crop,
comes out as large up to a pixel, and is no larger than what it is made from. -/
structure Agrees (picture : Picture) (before : List TierPlan) (plan direct : TierPlan) : Prop where
  across : (shownBy (before ++ [plan])).across.covers plan.width = direct.across
  down : (shownBy (before ++ [plan])).down.covers plan.height = direct.down
  widthNear : plan.width ≤ direct.width + 1 ∧ direct.width ≤ plan.width + 1
  heightNear : plan.height ≤ direct.height + 1 ∧ direct.height ≤ plan.height + 1
  narrower : plan.width ≤ (before.getLast?.map TierPlan.width).getD picture.width
  lower : plan.height ≤ (before.getLast?.map TierPlan.height).getD picture.height

/-- Every rung agrees with the plan of the picture itself at its tier. -/
def Composes (picture : Picture) (rungs : List (ThumbnailTier × TierPlan)) : Prop :=
  ∀ before tier plan after, rungs = before ++ (tier, plan) :: after →
    ∃ cap direct, tier.shortSide = some cap ∧ tierPlan picture.width picture.height cap = some direct ∧
      Agrees picture (before.map Prod.snd) plan direct

theorem shown_append (above : List TierPlan) (plan : TierPlan) :
    shownBy (above ++ [plan]) = (shownBy above).within plan.view := by
  rw [shownBy, List.foldl_append]
  rfl

/-- A rendition, where it stands on the ladder of a picture, and the rungs that it is at the end of. -/
structure Reached (picture current : Picture) (bound : Nat) (above : List TierPlan) : Prop where
  onRung : OnRung picture bound current.width current.height (shownBy above)
  isWidth : (above.getLast?.map TierPlan.width).getD picture.width = current.width
  isHeight : (above.getLast?.map TierPlan.height).getD picture.height = current.height

namespace Reached

variable {picture current : Picture} {bound cap : Nat} {above : List TierPlan}

theorem top (picture : Picture) : Reached picture picture (max (max picture.width picture.height) 2048) [] :=
  ⟨OnRung.top picture, rfl, rfl⟩

theorem down (reached : Reached picture current bound above) (capPos : 0 < cap) (half : 2 * cap ≤ bound) :
    Reached picture (current.rendition cap capPos) cap (above ++ [planned current.width current.height cap]) := by
  refine ⟨?_, ?_, ?_⟩
  · rw [shown_append]
    exact reached.onRung.down capPos half
  · rw [List.getLast?_concat]
    rfl
  · rw [List.getLast?_concat]
    rfl

theorem agrees (reached : Reached picture current bound above) (capPos : 0 < cap) (half : 2 * cap ≤ bound) :
    Agrees picture above (planned current.width current.height cap)
      (planned picture.width picture.height cap) := by
  have next := (reached.down capPos half).onRung
  obtain ⟨across, down⟩ := next.shows capPos
  obtain ⟨widthNear, heightNear⟩ := next.sides_near
  have sides := planned_sides current capPos
  refine ⟨across, down, widthNear, heightNear, ?_, ?_⟩
  · rw [reached.isWidth]
    omega
  · rw [reached.isHeight]
    omega

end Reached

/-- Induction on the rungs, from the rendition that the ones above come out as. -/
theorem climbs_agree {picture current : Picture} {bound : Nat} {rungs : List (ThumbnailTier × TierPlan)}
    (climbs : Climbs current bound rungs) {above : List TierPlan} (reached : Reached picture current bound above)
    {before : List (ThumbnailTier × TierPlan)} {tier : ThumbnailTier} {plan : TierPlan}
    {after : List (ThumbnailTier × TierPlan)} (isRung : rungs = before ++ (tier, plan) :: after) :
    ∃ cap direct, tier.shortSide = some cap ∧ tierPlan picture.width picture.height cap = some direct ∧
      Agrees picture (above ++ before.map Prod.snd) plan direct := by
  induction climbs generalizing above before with
  | nil => exact absurd isRung.symm (List.append_ne_nil_of_right_ne_nil before (List.cons_ne_nil _ _))
  | cons isCap capPos small half climbs ih =>
    cases before with
    | nil =>
      rw [List.nil_append] at isRung
      cases isRung
      rw [List.map_nil, List.append_nil]
      exact ⟨_, _, isCap, tier_plan_eq picture capPos small, reached.agrees capPos half⟩
    | cons head rest =>
      rw [List.cons_append] at isRung
      cases isRung
      have agreed := ih (reached.down capPos half) rfl
      rw [List.append_assoc] at agreed
      exact agreed

theorem climbs_compose {picture : Picture} {rungs : List (ThumbnailTier × TierPlan)}
    (climbs : Climbs picture (max (max picture.width picture.height) 2048) rungs) : Composes picture rungs := by
  intro before tier plan after isRung
  exact climbs_agree climbs (Reached.top picture) isRung

/-- The caps that a plan is made for. -/
def tierCaps : List Nat := loopMaxShortSide :: ThumbnailTier.grid.filterMap ThumbnailTier.shortSide

theorem tier_caps_small {cap : Nat} (isCap : cap ∈ tierCaps) : 0 < cap ∧ cap ≤ 2 ^ 20 := by
  have all : ∀ cap ∈ tierCaps, 0 < cap ∧ cap ≤ 2 ^ 20 := by decide
  exact all cap isCap

/-- A plan is made for any picture at any cap, and the rungs of the cascade and of the posters show of it what
plans of its own would. -/
theorem grid_ladder_composes (picture : Picture) :
    (∀ cap ∈ tierCaps, ∃ plan, tierPlan picture.width picture.height cap = some plan ∧ WellCut picture cap plan) ∧
      (∀ bytes, ∃ rungs, cascade bytes picture.width picture.height = some rungs ∧ Composes picture rungs) ∧
      ∃ rungs, posterPlans picture.width picture.height = some rungs ∧ Composes picture rungs := by
  have halving : Halving (max (max picture.width picture.height) 2048) ThumbnailTier.grid :=
    grid_halving (Nat.le_max_right _ _)
  refine ⟨?_, ?_, ?_⟩
  · intro cap isCap
    obtain ⟨capPos, small⟩ := tier_caps_small isCap
    exact ⟨_, tier_plan_eq picture capPos small, planned_well_cut picture capPos⟩
  · intro bytes
    obtain ⟨rungs, isRungs, climbs⟩ := cascade_climbs picture _ halving bytes
    exact ⟨rungs, isRungs, climbs_compose climbs⟩
  · obtain ⟨rungs, isRungs, climbs⟩ := posters_climb picture _ halving 0
    exact ⟨rungs, isRungs, climbs_compose climbs⟩

example : (cascade (some 50000000) 800 20000).map (fun rungs => rungs.map fun rung => (rung.2.width, rung.2.height)) =
    some [(800, 2048), (512, 1024), (256, 512)] := by decide +kernel

end Panoptikon.Visuals
