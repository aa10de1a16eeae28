import Mathlib.Algebra.Order.Field.Power
import Mathlib.Tactic.Linarith
import Mathlib.Tactic.Positivity
import Mathlib.Tactic.Ring
import Panoptikon.Foundation.BinaryFloat

/-!
# Rounding is correct

A pattern is a number of places and the exponent of the last one. Rounding keeps
as many places as the format has room for; in units of the last place kept, the
number is at most one half away, and every other pattern is further.
-/

namespace Foundation

namespace BinaryFormat

variable (format : BinaryFormat)

section Fields

variable {format} {field fraction : Nat}

theorem sign_bit_multiple (format : BinaryFormat) (negative : Bool) : ∃ above, format.signBit negative =
    2 ^ format.fractionBits * (2 ^ format.exponentBits * above) := by
  unfold signBit
  cases negative
  · exact ⟨0, rfl⟩
  · exact ⟨1, by rw [if_pos rfl, pow_add, Nat.mul_one]⟩

variable (negative : Bool)

theorem fraction_of_fields (small : fraction < 2 ^ format.fractionBits) :
    format.fraction (format.signBit negative + (field * 2 ^ format.fractionBits + fraction)) =
      fraction := by
  obtain ⟨above, isAbove⟩ := sign_bit_multiple format negative
  rw [BinaryFormat.fraction, isAbove, Nat.mul_comm field, Nat.mul_add_mod, Nat.mul_add_mod,
    Nat.mod_eq_of_lt small]

theorem exponent_field_of_fields (small : fraction < 2 ^ format.fractionBits)
    (fits : field < 2 ^ format.exponentBits) :
    format.exponentField (format.signBit negative + (field * 2 ^ format.fractionBits + fraction)) =
      field := by
  obtain ⟨above, isAbove⟩ := sign_bit_multiple format negative
  rw [exponentField, isAbove, Nat.mul_comm field, Nat.mul_add_div (Nat.two_pow_pos _),
    Nat.mul_add_div (Nat.two_pow_pos _), Nat.div_eq_of_lt small, Nat.add_zero, Nat.mul_add_mod,
    Nat.mod_eq_of_lt fits]

theorem decode_top_field (small : fraction < 2 ^ format.fractionBits)
    (some : fraction ≠ 0) : ∃ other payload, format.decode (format.signBit negative +
      (format.topField * 2 ^ format.fractionBits + fraction)) = .nan other payload := by
  have top : format.topField < 2 ^ format.exponentBits := by
    have positive := Nat.two_pow_pos format.exponentBits
    unfold topField
    omega
  unfold decode
  rw [fraction_of_fields negative small, exponent_field_of_fields negative small top]
  dsimp only
  rw [if_pos rfl, if_neg some]
  exact ⟨_, _, rfl⟩

end Fields

section Magnitudes

variable {format}

/-- The number of a pattern from its places: `kept` of them, the last one with
the exponent `unit` above the lowest. -/
theorem magnitude_of_places {unit kept : Nat} (low : unit = 0 ∨ 2 ^ format.fractionBits ≤ kept)
    (high : kept ≤ 2 * 2 ^ format.fractionBits) : format.magnitude (unit * 2 ^ format.fractionBits + kept) =
      kept * 2 ^ (format.lowestExponent + unit) := by
  have positive : 0 < 2 ^ format.fractionBits := Nat.two_pow_pos _
  unfold magnitude
  generalize 2 ^ format.fractionBits = places at *
  rcases Nat.lt_or_ge kept places with subnormal | normal
  · have none : unit = 0 := by omega
    rw [none, Nat.zero_mul, Nat.zero_add, if_pos (Nat.div_eq_of_lt subnormal)]
    simp
  · obtain ⟨rest, rfl⟩ := Nat.exists_eq_add_of_le normal
    have restSmall : rest ≤ places := by omega
    rcases Nat.lt_or_ge rest places with inside | carry
    · have field : (unit * places + (places + rest)) / places = unit + 1 := by
        rw [show unit * places + (places + rest) = rest + places * (unit + 1) by ring,
          Nat.add_mul_div_left _ _ positive, Nat.div_eq_of_lt inside, Nat.zero_add]
      have fraction : (unit * places + (places + rest)) % places = rest := by
        rw [show unit * places + (places + rest) = rest + places * (unit + 1) by ring,
          Nat.add_mul_mod_self_left, Nat.mod_eq_of_lt inside]
      rw [field, fraction, if_neg (Nat.succ_ne_zero unit)]
      push_cast
      rw [add_sub_cancel_right]
    · -- All places are used up: the next binade starts.
      have full : rest = places := by omega
      have field : (unit * places + (places + rest)) / places = unit + 2 := by
        rw [full, show unit * places + (places + places) = places * (unit + 2) by ring,
          Nat.mul_div_cancel_left _ positive]
      have fraction : (unit * places + (places + rest)) % places = 0 := by
        rw [full, show unit * places + (places + places) = places * (unit + 2) by ring,
          Nat.mul_mod_right]
      rw [field, fraction, if_neg (by omega), full]
      have next : format.lowestExponent + ((unit + 2 : Nat) - 1 : Int) =
          format.lowestExponent + unit + 1 := by
        push_cast
        ring
      rw [next, zpow_add_one₀ (by norm_num)]
      push_cast
      ring

theorem places_of_pattern (format : BinaryFormat) (pattern : Nat) :
    ∃ unit kept, pattern = unit * 2 ^ format.fractionBits + kept ∧
      (unit = 0 ∨ 2 ^ format.fractionBits ≤ kept) ∧ kept < 2 * 2 ^ format.fractionBits := by
  have positive : 0 < 2 ^ format.fractionBits := Nat.two_pow_pos _
  generalize 2 ^ format.fractionBits = places at *
  have split := Nat.div_add_mod pattern places
  have small := Nat.mod_lt pattern positive
  rcases Nat.eq_zero_or_pos (pattern / places) with none | some
  · refine ⟨0, pattern, by ring, Or.inl rfl, ?_⟩
    rw [none, Nat.mul_zero] at split
    omega
  · obtain ⟨unit, isUnit⟩ := Nat.exists_eq_add_of_le some
    refine ⟨unit, places + pattern % places, ?_, Or.inr (Nat.le_add_right _ _), by omega⟩
    calc pattern = places * (pattern / places) + pattern % places := split.symm
      _ = unit * places + (places + pattern % places) := by rw [isUnit]; ring

end Magnitudes

/-- A natural number no further than one half, and even when as far. -/
structure Halfway (number : ℚ) (whole : Nat) : Prop where
  close : |number - whole| ≤ 1 / 2
  even : |number - whole| = 1 / 2 → Even whole

theorem Halfway.of_eq {number : ℚ} {whole : Nat} (same : number = whole) : Halfway number whole := by
  rw [same]
  exact ⟨by simp, fun half => by simp at half⟩

theorem Halfway.other {number : ℚ} {whole other : Nat} (halfway : Halfway number whole)
    (apart : other ≠ whole) : 1 / 2 ≤ |number - other| := by
  have close := halfway.close
  have oneApart : (1 : ℚ) ≤ |(other : ℚ) - whole| := by
    have distinct : (other : Int) - whole ≠ 0 := by omega
    exact_mod_cast Int.one_le_abs distinct
  have triangle : |(other : ℚ) - whole| ≤ |number - other| + |number - whole| := by
    have add := abs_add_le (number - whole) (-(number - other))
    rw [abs_neg] at add
    have same : number - whole + -(number - other) = other - whole := by ring
    rw [same] at add
    linarith
  linarith

theorem round_shift_halfway (number shift : Nat) :
    Halfway ((number : ℚ) / 2 ^ shift) (roundShift number shift) := by
  have positive : 0 < 2 ^ shift := Nat.two_pow_pos shift
  have split := Nat.div_add_mod number (2 ^ shift)
  have small := Nat.mod_lt number positive
  have cast : ((2 ^ shift : Nat) : ℚ) = 2 ^ shift := by push_cast; rfl
  rw [← cast]
  unfold roundShift
  dsimp only
  generalize 2 ^ shift = width at *
  generalize number / width = quotient at *
  generalize number % width = rest at *
  have widthPositive : (0 : ℚ) < width := by exact_mod_cast positive
  have number_eq : (number : ℚ) / width = quotient + rest / width := by
    rw [← split]
    push_cast
    rw [add_div, mul_div_cancel_left₀ _ widthPositive.ne']
  rw [number_eq]
  split
  · rename_i below
    have less : (rest : ℚ) / width < 1 / 2 := by
      rw [div_lt_div_iff₀ widthPositive (by norm_num)]
      have cast : (2 * rest : ℚ) < width := by exact_mod_cast below
      linarith
    have distance : |(quotient : ℚ) + rest / width - quotient| = rest / width := by
      rw [add_sub_cancel_left, abs_of_nonneg (by positivity)]
    exact ⟨by rw [distance]; exact less.le, fun half => by rw [distance] at half; linarith⟩
  · split
    · rename_i above
      have more : 1 / 2 < (rest : ℚ) / width ∧ (rest : ℚ) / width < 1 := by
        constructor
        · rw [div_lt_div_iff₀ (by norm_num) widthPositive]
          have cast : (width : ℚ) < 2 * rest := by exact_mod_cast above
          linarith
        · rw [div_lt_one widthPositive]
          exact_mod_cast small
      have distance : |(quotient : ℚ) + rest / width - (quotient + 1 : Nat)| = 1 - rest / width := by
        push_cast
        rw [show (quotient : ℚ) + rest / width - (quotient + 1) = -(1 - rest / width) by ring,
          abs_neg, abs_of_pos (by linarith)]
      exact ⟨by rw [distance]; linarith, fun half => by rw [distance] at half; linarith⟩
    · have half : (rest : ℚ) / width = 1 / 2 := by
        rw [div_eq_div_iff widthPositive.ne' (by norm_num)]
        have tie : 2 * rest = width := by omega
        have cast : (2 * rest : ℚ) = width := by exact_mod_cast tie
        linarith
      refine ⟨?_, fun _ => ?_⟩
      · rw [half]
        rcases Nat.mod_two_eq_zero_or_one quotient with even | odd
        · rw [even, Nat.add_zero, add_sub_cancel_left, abs_of_pos (by norm_num)]
        · rw [odd]
          push_cast
          rw [show (quotient : ℚ) + 1 / 2 - (quotient + 1) = -(1 / 2) by ring, abs_neg,
            abs_of_pos (by norm_num)]
      · rw [Nat.even_iff]
        omega

section Kept

variable {format} {significand : Nat} {exponent : Int}

theorem keep_halfway (format : BinaryFormat) (significand : Nat) (exponent : Int) :
    Halfway ((significand : ℚ) * 2 ^ exponent /
    2 ^ format.unit significand exponent) (format.keep significand exponent) := by
  unfold keep
  dsimp only
  generalize format.unit significand exponent = unit
  have power : (significand : ℚ) * 2 ^ exponent / 2 ^ unit = significand * 2 ^ (exponent - unit) := by
    rw [zpow_sub₀ (by norm_num), mul_div_assoc]
  rw [power]
  split
  · rename_i below
    refine Halfway.of_eq ?_
    obtain ⟨shift, isShift⟩ := Int.eq_ofNat_of_zero_le (Int.sub_nonneg_of_le below)
    rw [isShift]
    simp
  · rename_i above
    obtain ⟨shift, isShift⟩ := Int.eq_ofNat_of_zero_le (Int.sub_nonneg_of_le (not_le.mp above).le)
    rw [show exponent - unit = -(unit - exponent) by ring, isShift, zpow_neg, ← div_eq_mul_inv]
    simpa using round_shift_halfway significand shift

/-- The number is less than all places can hold, and above the lowest exponent
fills the first one. -/
theorem scaled_bounds (format : BinaryFormat) (exponent : Int) (positive : significand ≠ 0) :
    (significand : ℚ) * 2 ^ exponent / 2 ^ format.unit significand exponent <
      2 * 2 ^ format.fractionBits ∧
    (format.lowestExponent < format.unit significand exponent →
      2 ^ format.fractionBits ≤
        (significand : ℚ) * 2 ^ exponent / 2 ^ format.unit significand exponent) := by
  have two : (2 : ℚ) ≠ 0 := by norm_num
  have lower : (2 : ℚ) ^ Nat.log 2 significand ≤ significand := by
    exact_mod_cast Nat.pow_log_le_self 2 positive
  have upper : (significand : ℚ) < 2 ^ (Nat.log 2 significand + 1) := by
    exact_mod_cast Nat.lt_pow_succ_log_self (by norm_num) significand
  have scale : (0 : ℚ) < 2 ^ exponent := by positivity
  constructor
  · have place : Nat.log 2 significand + exponent - format.fractionBits ≤
        format.unit significand exponent := le_max_left _ _
    rw [div_lt_iff₀ (by positivity)]
    calc (significand : ℚ) * 2 ^ exponent
        < 2 ^ (Nat.log 2 significand + 1) * 2 ^ exponent := mul_lt_mul_of_pos_right upper scale
      _ = 2 ^ (Nat.log 2 significand + 1 + exponent) := by
          rw [zpow_add₀ two, zpow_add₀ two, zpow_natCast, zpow_one, pow_succ]
      _ ≤ 2 ^ (1 + format.fractionBits + format.unit significand exponent) :=
          zpow_le_zpow_right₀ (by norm_num) (by omega)
      _ = 2 * 2 ^ format.fractionBits * 2 ^ format.unit significand exponent := by
          rw [zpow_add₀ two, zpow_add₀ two, zpow_natCast, zpow_one]
  · intro above
    have place : Nat.log 2 significand + exponent - format.fractionBits =
        format.unit significand exponent := by
      unfold unit at above ⊢
      omega
    rw [le_div_iff₀ (by positivity), ← place]
    calc (2 : ℚ) ^ format.fractionBits *
          2 ^ ((Nat.log 2 significand : Int) + exponent - format.fractionBits)
        = 2 ^ Nat.log 2 significand * 2 ^ exponent := by
          rw [← zpow_natCast, ← zpow_natCast, ← zpow_add₀ two, ← zpow_add₀ two]
          congr 1
          ring
      _ ≤ significand * 2 ^ exponent := mul_le_mul_of_nonneg_right lower scale.le

theorem keep_bounds (format : BinaryFormat) (exponent : Int) (positive : significand ≠ 0) :
    format.keep significand exponent ≤ 2 * 2 ^ format.fractionBits ∧
    (format.lowestExponent < format.unit significand exponent →
      2 ^ format.fractionBits ≤ format.keep significand exponent) := by
  obtain ⟨below, above⟩ := scaled_bounds format exponent positive
  have close := abs_le.mp (keep_halfway format significand exponent).close
  constructor
  · have lessHalf : (format.keep significand exponent : ℚ) < 2 * 2 ^ format.fractionBits + 1 := by
      linarith [close.1]
    have whole : format.keep significand exponent < 2 * 2 ^ format.fractionBits + 1 := by
      exact_mod_cast lessHalf
    omega
  · intro large
    have moreHalf : (2 : ℚ) ^ format.fractionBits < format.keep significand exponent + 1 := by
      linarith [close.2, above large]
    have whole : 2 ^ format.fractionBits < format.keep significand exponent + 1 := by
      exact_mod_cast moreHalf
    omega

theorem Halfway.le_other {number : ℚ} {whole : Nat} (halfway : Halfway number whole)
    (other : Nat) : |number - whole| ≤ |number - other| := by
  by_cases same : other = whole
  · rw [same]
  · exact halfway.close.trans (halfway.other same)

theorem same_pattern {places above shift kept other : Nat} (low : 0 < shift → places ≤ other)
    (high : kept ≤ 2 * places) (some : 0 < places) (same : other * 2 ^ shift = kept) :
    (above + shift) * places + other = above * places + kept := by
  match shift with
  | 0 => simpa using same
  | 1 =>
    have least := low Nat.one_pos
    have full : other = places := by omega
    rw [← same, full]
    ring
  | shift + 2 =>
    have least := low (Nat.succ_pos _)
    have power : 4 ≤ 2 ^ (shift + 2) := by
      rw [pow_add]
      exact Nat.le_mul_of_pos_left 4 (Nat.two_pow_pos shift)
    have large := Nat.mul_le_mul least power
    omega

/-- Distances are measured in the last place of the pattern: a coarser pattern
is a whole number of them, a finer one lies below the binade of the number. -/
theorem nearest_of_halfway {number : ℚ} {above kept : Nat} (fraction : 0 < format.fractionBits)
    (halfway : Halfway (number / 2 ^ (format.lowestExponent + above)) kept)
    (high : kept ≤ 2 * 2 ^ format.fractionBits) (low : above = 0 ∨ 2 ^ format.fractionBits ≤ kept)
    (binade : above = 0 ∨
      (2 : ℚ) ^ format.fractionBits ≤ number / 2 ^ (format.lowestExponent + above)) :
    format.Nearest number (above * 2 ^ format.fractionBits + kept) := by
  have two : (2 : ℚ) ≠ 0 := by norm_num
  have some : 0 < 2 ^ format.fractionBits := Nat.two_pow_pos _
  have place : (0 : ℚ) < 2 ^ (format.lowestExponent + above) := by positivity
  have scaled (whole : Nat) : |number - whole * 2 ^ (format.lowestExponent + above)| =
      |number / 2 ^ (format.lowestExponent + above) - whole| *
        2 ^ (format.lowestExponent + above) := by
    rw [← abs_of_pos place, ← abs_mul, abs_of_pos place, sub_mul, div_mul_cancel₀ _ place.ne']
  have parity : Even (above * 2 ^ format.fractionBits + kept) ↔ Even kept := by
    have even : Even (above * 2 ^ format.fractionBits) :=
      (even_two.pow_of_ne_zero fraction.ne').mul_left above
    rw [Nat.even_add]
    exact iff_true_left even
  have compared : ∀ other, other ≠ above * 2 ^ format.fractionBits + kept →
      |number - kept * 2 ^ (format.lowestExponent + above)| ≤ |number - format.magnitude other| ∧
      (|number - kept * 2 ^ (format.lowestExponent + above)| = |number - format.magnitude other| →
        Even kept) := by
    intro other apart
    obtain ⟨unit, places, rfl, lowOther, highOther⟩ := places_of_pattern format other
    rw [magnitude_of_places lowOther highOther.le]
    rcases Nat.lt_or_ge unit above with finer | coarser
    · have inBinade := binade.resolve_left (by omega)
      have below : (places : ℚ) * 2 ^ (format.lowestExponent + unit) <
          2 ^ format.fractionBits * 2 ^ (format.lowestExponent + above) := by
        have fewer : (places : ℚ) < 2 * 2 ^ format.fractionBits := by exact_mod_cast highOther
        calc (places : ℚ) * 2 ^ (format.lowestExponent + unit)
            < 2 * 2 ^ format.fractionBits * 2 ^ (format.lowestExponent + unit) :=
              mul_lt_mul_of_pos_right fewer (by positivity)
          _ = 2 ^ format.fractionBits * 2 ^ (format.lowestExponent + unit + 1) := by
              rw [zpow_add_one₀ two]
              ring
          _ ≤ 2 ^ format.fractionBits * 2 ^ (format.lowestExponent + above) :=
              mul_le_mul_of_nonneg_left (zpow_le_zpow_right₀ (by norm_num) (by omega)) (by positivity)
      have strict : |number - kept * 2 ^ (format.lowestExponent + above)| <
          |number - places * 2 ^ (format.lowestExponent + unit)| := by
        have first := halfway.le_other (2 ^ format.fractionBits)
        push_cast at first
        rw [abs_of_nonneg (sub_nonneg.mpr inBinade)] at first
        calc |number - kept * 2 ^ (format.lowestExponent + above)|
            ≤ (number / 2 ^ (format.lowestExponent + above) - 2 ^ format.fractionBits) *
                2 ^ (format.lowestExponent + above) := by
              rw [scaled]
              exact mul_le_mul_of_nonneg_right first place.le
          _ = number - 2 ^ format.fractionBits * 2 ^ (format.lowestExponent + above) := by
              rw [sub_mul, div_mul_cancel₀ _ place.ne']
          _ < number - places * 2 ^ (format.lowestExponent + unit) := by linarith
          _ ≤ _ := le_abs_self _
      exact ⟨strict.le, fun tie => absurd tie strict.ne⟩
    · obtain ⟨shift, rfl⟩ := Nat.exists_eq_add_of_le coarser
      have whole : (places : ℚ) * 2 ^ (format.lowestExponent + (above + shift : Nat)) =
          (places * 2 ^ shift : Nat) * 2 ^ (format.lowestExponent + above) := by
        push_cast
        rw [← add_assoc, zpow_add₀ two _ (shift : Int), zpow_natCast]
        ring
      have distinct : places * 2 ^ shift ≠ kept := by
        intro same
        refine apart (same_pattern (fun positive => ?_) high some same)
        rcases lowOther with none | enough
        · omega
        · exact enough
      rw [whole, scaled, scaled]
      refine ⟨mul_le_mul_of_nonneg_right (halfway.le_other _) place.le, fun tie => ?_⟩
      have half := mul_right_cancel₀ place.ne' tie
      exact halfway.even (le_antisymm halfway.close (half ▸ halfway.other distinct))
  constructor
  · intro other
    rw [magnitude_of_places low high]
    by_cases same : other = above * 2 ^ format.fractionBits + kept
    · rw [same, magnitude_of_places low high]
    · exact (compared other same).1
  · intro other apart tie
    rw [magnitude_of_places low high] at tie
    exact parity.mpr ((compared other apart).2 tie)

/-- The pattern a number is rounded to, were the exponent field unbounded. -/
def pattern (format : BinaryFormat) (significand : Nat) (exponent : Int) : Nat :=
  (format.unit significand exponent - format.lowestExponent).toNat * 2 ^ format.fractionBits +
    format.keep significand exponent

theorem pattern_nearest (positive : significand ≠ 0) (fraction : 0 < format.fractionBits) :
    format.Nearest (significand * 2 ^ exponent) (format.pattern significand exponent) := by
  obtain ⟨high, low⟩ := keep_bounds format exponent positive
  obtain ⟨_, scaledLow⟩ := scaled_bounds format exponent positive
  have halfway := keep_halfway format significand exponent
  obtain ⟨above, isAbove⟩ : ∃ above : Nat,
      format.unit significand exponent = format.lowestExponent + above :=
    ⟨(format.unit significand exponent - format.lowestExponent).toNat, by
      have := le_max_right (Nat.log 2 significand + exponent - format.fractionBits)
        format.lowestExponent
      unfold unit
      omega⟩
  have isPattern : format.pattern significand exponent =
      above * 2 ^ format.fractionBits + format.keep significand exponent := by
    unfold pattern
    rw [isAbove, add_sub_cancel_left, Int.toNat_natCast]
  rw [isPattern]
  have lowKeep : above = 0 ∨ 2 ^ format.fractionBits ≤ format.keep significand exponent := by
    rcases Nat.eq_zero_or_pos above with none | some
    · exact Or.inl none
    · exact Or.inr (low (by omega))
  have lowScaled : above = 0 ∨ (2 : ℚ) ^ format.fractionBits ≤
      significand * 2 ^ exponent / 2 ^ (format.lowestExponent + above) := by
    rcases Nat.eq_zero_or_pos above with none | some
    · exact Or.inl none
    · exact Or.inr (isAbove ▸ scaledLow (by omega))
  rw [isAbove] at halfway
  exact nearest_of_halfway fraction halfway high lowKeep lowScaled

theorem round_rounds (fraction : 0 < format.fractionBits) (negative : Bool) (significand : Nat)
    (exponent : Int) : format.Rounds negative (significand * 2 ^ exponent)
      (format.round negative significand exponent) := by
  unfold round
  split
  · rename_i zero
    refine ⟨0, ⟨fun other => ?_, fun _ _ _ => Even.zero⟩, by simp⟩
    simp [zero, magnitude]
  · rename_i some
    exact ⟨format.pattern significand exponent, pattern_nearest some fraction, rfl⟩

end Kept

theorem magnitude_nearest (fraction : 0 < format.fractionBits) (pattern : Nat) :
    format.Nearest (format.magnitude pattern) pattern := by
  obtain ⟨above, kept, rfl, low, high⟩ := places_of_pattern format pattern
  have place : (2 : ℚ) ^ (format.lowestExponent + above) ≠ 0 := by positivity
  have scaled : format.magnitude (above * 2 ^ format.fractionBits + kept) /
      2 ^ (format.lowestExponent + above) = kept := by
    rw [magnitude_of_places low high.le, mul_div_cancel_right₀ _ place]
  refine nearest_of_halfway fraction (Halfway.of_eq scaled) high.le low ?_
  rw [scaled]
  exact low.imp_right fun enough => by exact_mod_cast enough

theorem rounds_exact (fraction : 0 < format.fractionBits) (negative : Bool) {pattern : Nat}
    (inRange : pattern < format.topField * 2 ^ format.fractionBits) :
    format.Rounds negative (format.magnitude pattern) (format.signBit negative + pattern) :=
  ⟨pattern, magnitude_nearest format fraction pattern, by rw [Nat.min_eq_left inRange.le]⟩

theorem magnitude_injective : Function.Injective format.magnitude := by
  have two : (2 : ℚ) ≠ 0 := by norm_num
  have some : 0 < 2 ^ format.fractionBits := Nat.two_pow_pos _
  have ordered : ∀ first second above shift kept other : Nat,
      first = above * 2 ^ format.fractionBits + kept →
      second = (above + shift) * 2 ^ format.fractionBits + other →
      kept < 2 * 2 ^ format.fractionBits →
      (above + shift = 0 ∨ 2 ^ format.fractionBits ≤ other) →
      (kept : ℚ) * 2 ^ (format.lowestExponent + above) =
        other * 2 ^ (format.lowestExponent + (above + shift : Nat)) → first = second := by
    intro first second above shift kept other isFirst isSecond high low same
    have place : (2 : ℚ) ^ (format.lowestExponent + above) ≠ 0 := by positivity
    have whole : (kept : ℚ) = (other * 2 ^ shift : Nat) := by
      refine mul_right_cancel₀ place (same.trans ?_)
      push_cast
      rw [← add_assoc, zpow_add₀ two _ (shift : Int), zpow_natCast]
      ring
    have equal : other * 2 ^ shift = kept := by exact_mod_cast whole.symm
    rw [isFirst, isSecond]
    exact (same_pattern (fun positive => low.resolve_left (by omega)) high.le some equal).symm
  intro first second same
  obtain ⟨above, kept, isFirst, low, high⟩ := places_of_pattern format first
  obtain ⟨upper, other, isSecond, lowOther, highOther⟩ := places_of_pattern format second
  rw [isFirst, isSecond, magnitude_of_places low high.le,
    magnitude_of_places lowOther highOther.le] at same
  rcases Nat.le_total above upper with inOrder | inOrder
  · obtain ⟨shift, rfl⟩ := Nat.exists_eq_add_of_le inOrder
    exact ordered first second above shift kept other isFirst isSecond high lowOther same
  · obtain ⟨shift, rfl⟩ := Nat.exists_eq_add_of_le inOrder
    exact (ordered second first upper shift other kept isSecond isFirst highOther low same.symm).symm

theorem rounds_unique {negative : Bool} {own bits : Nat} (inRange : own < format.topField * 2 ^ format.fractionBits)
    (rounds : format.Rounds negative (format.magnitude own) bits) : bits = format.signBit negative + own := by
  obtain ⟨pattern, nearest, rfl⟩ := rounds
  have same : format.magnitude pattern = format.magnitude own := by
    have zero := nearest.nearest own
    rw [sub_self, abs_zero] at zero
    exact (sub_eq_zero.mp (abs_eq_zero.mp (le_antisymm zero (abs_nonneg _)))).symm
  rw [magnitude_injective format same, Nat.min_eq_left inRange.le]

theorem fields_of_bits {bits : Nat} (fits : bits < 2 * 2 ^ (format.fractionBits + format.exponentBits)) :
    bits = format.signBit (format.isNegative bits) +
      (format.exponentField bits * 2 ^ format.fractionBits + format.fraction bits) := by
  have low := Nat.div_add_mod bits (2 ^ format.fractionBits)
  have middle := Nat.div_add_mod (bits / 2 ^ format.fractionBits) (2 ^ format.exponentBits)
  rw [Nat.div_div_eq_div_mul, ← pow_add] at middle
  have top : bits / 2 ^ (format.fractionBits + format.exponentBits) < 2 :=
    Nat.div_lt_of_lt_mul (by rwa [Nat.mul_comm] at fits)
  have sign : format.signBit (format.isNegative bits) =
      2 ^ format.fractionBits * (2 ^ format.exponentBits *
        (bits / 2 ^ (format.fractionBits + format.exponentBits))) := by
    unfold signBit isNegative
    generalize bits / 2 ^ (format.fractionBits + format.exponentBits) = high at *
    match high, top with
    | 0, _ => rfl
    | 1, _ => simp [pow_add]
  unfold exponentField fraction
  rw [sign]
  calc bits = 2 ^ format.fractionBits * (bits / 2 ^ format.fractionBits) +
        bits % 2 ^ format.fractionBits := low.symm
    _ = _ := by
        conv_lhs => rw [← middle]
        ring

theorem decode_nan {bits payload : Nat} {negative : Bool} (decoded : format.decode bits = .nan negative payload) :
    payload ≠ 0 ∧ payload < 2 ^ format.fractionBits := by
  unfold decode at decoded
  dsimp only at decoded
  split at decoded
  · split at decoded
    · cases decoded
    · rename_i some
      cases decoded
      exact ⟨some, Nat.mod_lt _ (Nat.two_pow_pos _)⟩
  · split at decoded <;> cases decoded

theorem represents_decode (fraction : 0 < format.fractionBits) {bits : Nat}
    (fits : bits < 2 * 2 ^ (format.fractionBits + format.exponentBits)) :
    format.Represents (format.decode bits) bits := by
  have fields := fields_of_bits format fits
  have small : format.fraction bits < 2 ^ format.fractionBits := Nat.mod_lt _ (Nat.two_pow_pos _)
  have inField : format.exponentField bits < 2 ^ format.exponentBits :=
    Nat.mod_lt _ (Nat.two_pow_pos _)
  have below (notTop : format.exponentField bits ≠ format.topField) :
      format.exponentField bits * 2 ^ format.fractionBits + format.fraction bits <
        format.topField * 2 ^ format.fractionBits := by
    have less : format.exponentField bits + 1 ≤ format.topField := by
      unfold topField at notTop ⊢
      omega
    have product := Nat.mul_le_mul_right (2 ^ format.fractionBits) less
    rw [Nat.add_mul, Nat.one_mul] at product
    omega
  have quotient : (format.exponentField bits * 2 ^ format.fractionBits + format.fraction bits) /
      2 ^ format.fractionBits = format.exponentField bits := by
    rw [Nat.mul_comm, Nat.mul_add_div (Nat.two_pow_pos _), Nat.div_eq_of_lt small, Nat.add_zero]
  have rest : (format.exponentField bits * 2 ^ format.fractionBits + format.fraction bits) %
      2 ^ format.fractionBits = format.fraction bits := by
    rw [Nat.mul_comm, Nat.mul_add_mod, Nat.mod_eq_of_lt small]
  by_cases top : format.exponentField bits = format.topField
  · unfold decode
    dsimp only
    rw [if_pos top]
    split
    · rename_i none
      rw [none, top, Nat.add_zero] at fields
      exact fields
    · rename_i some
      have isNan := @decode_top_field format _ (format.isNegative bits) small some
      rw [← top, ← fields] at isNan
      exact isNan
  · have rounds := rounds_exact format fraction (format.isNegative bits) (below top)
    rw [← fields, magnitude, quotient, rest] at rounds
    unfold decode
    dsimp only
    rw [if_neg top]
    split
    · rename_i zero
      rw [if_pos zero, zero, Nat.zero_mul, Nat.zero_add] at rounds
      exact rounds
    · rename_i some
      rw [if_neg some] at rounds
      exact rounds

end BinaryFormat

end Foundation
