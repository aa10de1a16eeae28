import Mathlib.Algebra.GroupWithZero.Nat
import Mathlib.Data.Nat.Basic

/-!
# The grid ladder

`visual_tiers.rs`: the crop and the size of a grid rendition, and the plans of the cascade
and of the posters, each rung planned against the one before it. Arithmetic that leaves its
word has no result; an `as u32` keeps the low bits.
-/

namespace Panoptikon.Visuals

def u64 (value : Nat) : Option Nat := if value < 2 ^ 64 then some value else none

def minus (left right : Nat) : Option Nat := if right ≤ left then some (left - right) else none

def quotient (numerator denominator : Nat) : Option Nat :=
  if denominator = 0 then none else some (numerator / denominator)

def asU32 (value : Nat) : Nat := value % 2 ^ 32

def gridDirectNumerator : Nat := 5

def gridDirectDenominator : Nat := 4

def gridDirectMaxFileSize : Nat := 8 * 1024 * 1024

def gridMaxWholeAspect : Nat := 2

def loopMaxShortSide : Nat := 1024

inductive ThumbnailTier where
  | display
  | gridM
  | gridS
  | gridXs

namespace ThumbnailTier

def shortSide : ThumbnailTier → Option Nat
  | .display => none
  | .gridM => some 1024
  | .gridS => some 512
  | .gridXs => some 256

/-- The largest first. -/
def grid : List ThumbnailTier := [.gridM, .gridS, .gridXs]

end ThumbnailTier

/-- A crop in pixels of the source, then a resize. -/
structure TierPlan where
  cropX : Nat
  cropY : Nat
  cropWidth : Nat
  cropHeight : Nat
  width : Nat
  height : Nat

/-- Half-up division. -/
def roundDiv (numerator denominator : Nat) : Option Nat := do
  let doubled ← u64 (numerator * 2)
  let shifted ← u64 (doubled + denominator)
  let rounded ← quotient shifted (← u64 (denominator * 2))
  return asU32 rounded

def tierPlan (width height tier : Nat) : Option TierPlan :=
  -- `debug_assert!`
  if width = 0 ∨ height = 0 ∨ tier = 0 then none
  else do
    let width := max width 1
    let height := max height 1
    let short := if width ≤ height then width else height
    let long := if width ≤ height then height else width
    let outShort := min short tier
    let cap ← u64 (gridMaxWholeAspect * tier)
    let cropLongCap ← quotient (← u64 (cap * short)) outShort
    let cropLong := asU32 (max (min long cropLongCap) 1)
    let rounded ← roundDiv (← u64 (cropLong * outShort)) short
    let outLong := max rounded 1
    if width ≤ height then
      -- the top strip
      return ⟨0, 0, width, cropLong, outShort, outLong⟩
    else
      -- the centred band
      let rest ← minus width cropLong
      return ⟨rest / 2, 0, cropLong, height, outLong, outShort⟩

/-- Both sides against the tier, with a slack of a quarter. -/
def withinGridDimensions (width height tier : Nat) : Option Bool :=
  if width = 0 ∨ height = 0 then some true
  else do
    let short := min width height
    let long := max width height
    let left ← u64 (short * gridDirectDenominator)
    let right ← u64 (tier * gridDirectNumerator)
    if left ≤ right then
      let left ← u64 (long * gridDirectDenominator)
      let right ← u64 ((← u64 (gridMaxWholeAspect * tier)) * gridDirectNumerator)
      return left ≤ right
    else return false

def gridServesOriginal (fileSize width height tier : Nat) : Option Bool := do
  let within ← withinGridDimensions width height tier
  return within && fileSize ≤ gridDirectMaxFileSize

def gridServesStoredThumbnail (width height tier : Nat) : Option Bool := withinGridDimensions width height tier

/-- No plan where the source itself is served. -/
def gridPlan (fileSize width height : Nat) (tier : ThumbnailTier) : Option (Option TierPlan) :=
  match tier.shortSide with
  | none => some none
  | some shortSide =>
      if width = 0 ∨ height = 0 then some none
      else do
        if ← gridServesOriginal fileSize width height shortSide then return none
        else
          let plan ← tierPlan width height shortSide
          return some plan

def gridPlanForStoredThumbnail (width height : Nat) (tier : ThumbnailTier) : Option (Option TierPlan) :=
  match tier.shortSide with
  | none => some none
  | some shortSide =>
      if width = 0 ∨ height = 0 then some none
      else do
        if ← gridServesStoredThumbnail width height shortSide then return none
        else
          let plan ← tierPlan width height shortSide
          return some plan

/-- The loop of `cascade`: the bytes count until a rendition has been produced. -/
def cascadeFrom (bytes : Option Nat) (width height : Nat) :
    List ThumbnailTier → Option (List (ThumbnailTier × TierPlan))
  | [] => some []
  | tier :: later => do
      let plan ←
        match bytes with
        | some size => gridPlan size width height tier
        | none => gridPlanForStoredThumbnail width height tier
      match plan with
      | none => cascadeFrom bytes width height later
      | some rendition =>
          let rungs ← cascadeFrom none rendition.width rendition.height later
          return (tier, rendition) :: rungs

def cascade (fileSize : Option Nat) (width height : Nat) : Option (List (ThumbnailTier × TierPlan)) :=
  cascadeFrom fileSize width height ThumbnailTier.grid

/-- The loop of `poster_plans`; the first tier is not skipped. -/
def posterPlansFrom (width height : Nat) : Nat → List ThumbnailTier → Option (List (ThumbnailTier × TierPlan))
  | _, [] => some []
  | index, tier :: later =>
      match tier.shortSide with
      | none => posterPlansFrom width height (index + 1) later
      | some shortSide => do
          let plan ← tierPlan width height shortSide
          if 0 < index ∧ (plan.width, plan.height) = (width, height) then
            posterPlansFrom width height (index + 1) later
          else
            let rungs ← posterPlansFrom plan.width plan.height (index + 1) later
            return (tier, plan) :: rungs

def posterPlans (width height : Nat) : Option (List (ThumbnailTier × TierPlan)) :=
  posterPlansFrom width height 0 ThumbnailTier.grid

end Panoptikon.Visuals
