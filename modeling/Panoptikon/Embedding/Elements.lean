import Panoptikon.Embedding.Encoding
import Panoptikon.Foundation.Rounding

/-!
# Stored elements

The element types of a numpy array, the numbers their bits stand for, and the
`f32` each converts to. Every conversion is correctly rounded but the one of
half-precision subnormals, which come out half as large.
-/

namespace Panoptikon.Embedding

open Foundation

inductive StoredType where
  | f2 | f4 | f8
  | i1 | i2 | i4 | i8
  | u1 | u2 | u4 | u8
  | bool
deriving DecidableEq

namespace StoredType

def dtype : StoredType → NpyDtype
  | .f2 => ⟨.float, 2⟩
  | .f4 => ⟨.float, 4⟩
  | .f8 => ⟨.float, 8⟩
  | .i1 => ⟨.int, 1⟩
  | .i2 => ⟨.int, 2⟩
  | .i4 => ⟨.int, 4⟩
  | .i8 => ⟨.int, 8⟩
  | .u1 => ⟨.uint, 1⟩
  | .u2 => ⟨.uint, 2⟩
  | .u4 => ⟨.uint, 4⟩
  | .u8 => ⟨.uint, 8⟩
  | .bool => ⟨.bool, 1⟩

abbrev size (stored : StoredType) : Nat := stored.dtype.size

/-- What the bits of an element stand for. -/
def datum (stored : StoredType) (bits : Nat) : Datum :=
  match stored.dtype.kind with
  | .float =>
      match stored with
      | .f2 => BinaryFormat.half.decode bits
      | .f4 => BinaryFormat.single.decode bits
      | _ => BinaryFormat.double.decode bits
  | .int =>
      let number := asSigned (8 * stored.size) bits
      .finite (number < 0) number.natAbs 0
  | .uint => .finite false bits 0
  | .bool => .finite false (if bits = 0 then 0 else 1) 0

/-- The `f32` an element is converted to. -/
def convert (stored : StoredType) (bits : Nat) : Nat :=
  match stored.dtype.kind with
  | .float =>
      match stored with
      | .f2 => f16ToF32 bits
      | .f4 => bits
      | _ => doubleAsF32 bits
  | .int => intAsF32 (asSigned (8 * stored.size) bits)
  | .uint => intAsF32 bits
  | .bool => if bits = 0 then 0 else 0x3f800000

/-- The bytes of an element. -/
def encode (stored : StoredType) (littleEndian : Bool) (bits : Nat) : List UInt8 :=
  if littleEndian then toLeBytes stored.size bits else (toLeBytes stored.size bits).reverse

theorem encode_length (stored : StoredType) (littleEndian : Bool) (bits : Nat) :
    (stored.encode littleEndian bits).length = stored.size := by
  unfold encode
  split <;> simp [to_le_bytes_length]

variable {stored : StoredType} {bits : Nat}

theorem encode_byte (byte : stored.size = 1) (left right : Bool) :
    stored.encode left bits = stored.encode right bits := by
  unfold encode
  rw [byte]
  cases left <;> cases right <;> rfl

section

variable (fits : bits < 256 ^ stored.size)

include fits

theorem read_unsigned_encode (littleEndian : Bool) :
    readUnsigned stored.size (stored.encode littleEndian bits) littleEndian = .ok bits := by
  rw [readUnsigned, if_pos (encode_length stored littleEndian bits)]
  unfold encode
  cases littleEndian
  · simp [le_bytes_to_le_bytes fits]
  · simp [le_bytes_to_le_bytes fits]

theorem read_u8_encode
    (byte : stored.size = 1) (littleEndian : Bool) : readU8 (stored.encode littleEndian bits) = .ok bits := by
  unfold encode
  rw [byte, pow_one] at fits
  rw [byte]
  have same : (UInt8.ofNat bits).toNat = bits := by
    rw [UInt8.toNat_ofNat']
    exact Nat.mod_eq_of_lt fits
  cases littleEndian <;> simp [toLeBytes, readU8, okOr, same]

theorem parse_scalar_encode
    (littleEndian : Bool) : parseScalar (stored.encode littleEndian bits) stored.dtype littleEndian =
      .ok (stored.convert bits) := by
  have wide := read_unsigned_encode fits littleEndian
  have narrow := fun byte => read_u8_encode fits byte littleEndian
  cases stored <;> simp only [size, dtype] at wide narrow <;>
    simp [parseScalar, dtype, convert, wide, narrow] <;> rfl

end

end StoredType

/-- A half that is neither zero nor normal. -/
def Subnormal (bits : Nat) : Prop :=
  BinaryFormat.half.exponentField bits = 0 ∧ BinaryFormat.half.fraction bits ≠ 0

instance (bits : Nat) : Decidable (Subnormal bits) := inferInstanceAs (Decidable (_ ∧ _))

theorem bit_ten (mant : Nat) (small : mant < 2048) : mant &&& 0x400 = 0 ↔ mant < 1024 := by
  rw [show 0x400 = 2 ^ 10 from rfl]
  constructor
  · intro clear
    by_contra high
    have set_ := Nat.testBit_of_two_pow_le_and_two_pow_add_one_gt (i := 10)
      (show 2 ^ 10 ≤ mant by omega) (show mant < 2 ^ (10 + 1) by omega)
    have bit := congrArg (Nat.testBit · 10) clear
    simp only [Nat.testBit_and, set_, Bool.true_and, Nat.zero_testBit] at bit
    exact absurd bit (by decide)
  · intro low
    refine Nat.eq_of_testBit_eq fun place => ?_
    rw [Nat.testBit_and, Nat.testBit_two_pow, Nat.zero_testBit]
    by_cases ten : 10 = place
    · subst ten
      rw [Nat.testBit_lt_two_pow (show mant < 2 ^ 10 from low), Bool.false_and]
    · simp [ten]

theorem normalize_shifts : ∀ (fuel mant : Nat) (exp : Int), mant < 2048 → 1024 ≤ mant * 2 ^ fuel →
    ∃ shift ≤ fuel, normalize fuel mant exp = (mant * 2 ^ shift, exp - shift) ∧
      1024 ≤ mant * 2 ^ shift ∧ mant * 2 ^ shift < 2048
  | 0, mant, exp, small, enough => ⟨0, Nat.le_refl 0, by simp [normalize], by simpa using enough,
      by simpa using small⟩
  | fuel + 1, mant, exp, small, enough => by
      unfold normalize
      split
      · rename_i clear
        have low := (bit_ten mant small).mp clear
        obtain ⟨shift, bound, same, least, most⟩ := normalize_shifts fuel (mant * 2) (exp - 1)
          (by omega) (by rw [pow_succ] at enough; linarith)
        refine ⟨shift + 1, by omega, ?_, ?_, ?_⟩
        · rw [same, pow_succ]
          exact Prod.ext (by ring) (by push_cast; ring)
        · rw [pow_succ]
          linarith
        · rw [pow_succ]
          linarith
      · rename_i set_
        have high : 1024 ≤ mant := by
          by_contra low
          exact set_ ((bit_ten mant small).mpr (by omega))
        exact ⟨0, Nat.zero_le _, by simp, by simpa using high, by simpa using small⟩

theorem fields_add {sign exp mant : Nat} (expSmall : exp < 2 ^ 8) (mantSmall : mant < 2 ^ 10) :
    sign <<< 31 ||| exp <<< 23 ||| mant <<< 13 =
      sign * 2 ^ 31 + (exp * 2 ^ 23 + mant * 2 ^ 13) := by
  have low : mant <<< 13 < 2 ^ 23 := by
    rw [Nat.shiftLeft_eq]
    omega
  have high : exp <<< 23 + mant <<< 13 < 2 ^ 31 := by
    rw [Nat.shiftLeft_eq, Nat.shiftLeft_eq]
    omega
  rw [Nat.or_assoc, ← Nat.shiftLeft_add_eq_or_of_lt low, ← Nat.shiftLeft_add_eq_or_of_lt high]
  simp only [Nat.shiftLeft_eq]

section Half

open BinaryFormat

variable {bits : Nat}

theorem sign_field (bits : Nat) : (bits >>> 15 &&& 0x1) * 2 ^ 31 =
    single.signBit (half.isNegative bits) := by
  have field : bits >>> 15 &&& 0x1 = bits / 2 ^ 15 % 2 := by
    rw [Nat.shiftRight_eq_div_pow]
    exact Nat.and_two_pow_sub_one_eq_mod _ 1
  have top : single.signBit (half.isNegative bits) =
      if decide (bits / 2 ^ 15 % 2 = 1) then 2 ^ 31 else 0 := rfl
  rw [field, top]
  rcases Nat.mod_two_eq_zero_or_one (bits / 2 ^ 15) with even | odd
  · rw [even]
    rfl
  · rw [odd]
    rfl

theorem exponent_field (bits : Nat) : bits >>> 10 &&& 0x1f = half.exponentField bits := by
  rw [Nat.shiftRight_eq_div_pow]
  exact Nat.and_two_pow_sub_one_eq_mod _ 5

theorem mantissa_field (bits : Nat) : bits &&& 0x3ff = half.fraction bits :=
  Nat.and_two_pow_sub_one_eq_mod _ 10

theorem exponent_field_lt (bits : Nat) : half.exponentField bits < 32 := Nat.mod_lt _ (by decide)

theorem fraction_lt (bits : Nat) : half.fraction bits < 1024 := Nat.mod_lt _ (by decide)

/-- The bits of a half that is not subnormal, spread over the wider fields. -/
theorem f16_to_f32_fields (normal : ¬Subnormal bits) :
    f16ToF32 bits = single.signBit (half.isNegative bits) +
      ((if half.exponentField bits = 0 then 0
        else if half.exponentField bits = 31 then 255 else half.exponentField bits + 112) * 2 ^ 23 +
        half.fraction bits * 2 ^ 13) := by
  have expSmall := exponent_field_lt bits
  have mantSmall := fraction_lt bits
  unfold f16ToF32
  dsimp only
  rw [exponent_field, mantissa_field, ← sign_field]
  by_cases zero : half.exponentField bits = 0
  · have noMant : half.fraction bits = 0 := by
      by_contra some
      exact normal ⟨zero, some⟩
    rw [if_pos zero, if_pos noMant, if_pos zero, noMant, Nat.shiftLeft_eq]
    simp
  · rw [if_neg zero, if_neg zero]
    by_cases top : half.exponentField bits = 31
    · rw [if_pos top, if_pos top]
      have mant32 : (if half.fraction bits = 0 then 0 else half.fraction bits <<< 13) =
          half.fraction bits <<< 13 := by
        split
        · rename_i none
          rw [none]
          rfl
        · rfl
      rw [mant32]
      exact fields_add (by decide) mantSmall
    · rw [if_neg top, if_neg top]
      exact fields_add (by omega) mantSmall

/-- The bits of a subnormal: its mantissa shifted to the top, and an exponent. -/
theorem f16_to_f32_subnormal (subnormal : Subnormal bits) :
    ∃ shift ≤ 10, 1024 ≤ half.fraction bits * 2 ^ shift ∧ half.fraction bits * 2 ^ shift < 2048 ∧
      f16ToF32 bits = single.signBit (half.isNegative bits) +
        ((112 - shift) * 2 ^ 23 + (half.fraction bits * 2 ^ shift - 1024) * 2 ^ 13) := by
  have mantSmall := fraction_lt bits
  obtain ⟨shift, bound, same, least, most⟩ := normalize_shifts 10 (half.fraction bits) (-1)
    (by omega) (by have := Nat.pos_of_ne_zero subnormal.2; omega)
  refine ⟨shift, bound, least, most, ?_⟩
  unfold f16ToF32
  dsimp only
  rw [exponent_field, mantissa_field, ← sign_field, if_pos subnormal.1, if_neg subnormal.2, same]
  dsimp only
  have exponent : ((-1 : Int) - shift + 1 + 127 - 15).toNat = 112 - shift := by omega
  have low : half.fraction bits * 2 ^ shift &&& 0x3ff = half.fraction bits * 2 ^ shift - 1024 := by
    rw [show half.fraction bits * 2 ^ shift &&& 0x3ff = half.fraction bits * 2 ^ shift % 2 ^ 10 from
      Nat.and_two_pow_sub_one_eq_mod _ 10]
    omega
  rw [exponent, low]
  exact fields_add (by omega) (by omega)

theorem single_magnitude (unit : Nat) {significand : Nat} (least : 1024 ≤ significand)
    (most : significand < 2048) : single.magnitude ((unit + 1) * 2 ^ 23 + (significand - 1024) * 2 ^ 13) =
      significand * 2 ^ ((unit : Int) - 136) := by
  have places : (unit + 1) * 2 ^ 23 + (significand - 1024) * 2 ^ 13 =
      unit * 2 ^ single.fractionBits + significand * 2 ^ 13 := by
    change _ = unit * 2 ^ 23 + _
    omega
  have low : 2 ^ single.fractionBits ≤ significand * 2 ^ 13 := by
    change 2 ^ 23 ≤ _
    omega
  have high : significand * 2 ^ 13 ≤ 2 * 2 ^ single.fractionBits := by
    change _ ≤ 2 * 2 ^ 23
    omega
  have exponent : single.lowestExponent + unit = (unit : Int) - 136 - (13 : Nat) := by
    have lowest : single.lowestExponent = -149 := by decide
    rw [lowest]
    push_cast
    ring
  rw [places, magnitude_of_places (Or.inr low) high, exponent, zpow_sub₀ (by norm_num), zpow_natCast]
  push_cast
  ring

theorem top_half_represents (top : half.exponentField bits = 31) :
    single.Represents (half.decode bits) (f16ToF32 bits) := by
  have mantSmall := fraction_lt bits
  have normal : ¬Subnormal bits := fun subnormal => by
    rw [subnormal.1] at top
    cases top
  have isTop : half.exponentField bits = half.topField := top
  rw [f16_to_f32_fields normal, if_neg (by omega), if_pos top]
  unfold decode
  dsimp only
  rw [if_pos isTop]
  split
  · rename_i none
    rw [none, Nat.zero_mul, Nat.add_zero]
    rfl
  · rename_i some
    have small : half.fraction bits * 2 ^ 13 < 2 ^ single.fractionBits := by
      change _ < 2 ^ 23
      omega
    exact decode_top_field _ small (by omega)

theorem normal_half_represents (notTop : half.exponentField bits ≠ 31) (normal : ¬Subnormal bits) :
    single.Represents (half.decode bits) (f16ToF32 bits) := by
  have expSmall := exponent_field_lt bits
  have mantSmall := fraction_lt bits
  have isNotTop : half.exponentField bits ≠ half.topField := notTop
  rw [f16_to_f32_fields normal, if_neg notTop]
  unfold decode
  dsimp only
  rw [if_neg isNotTop]
  by_cases zero : half.exponentField bits = 0
  · have none : half.fraction bits = 0 := by
      by_contra some
      exact normal ⟨zero, some⟩
    have isZero : single.magnitude 0 = ((0 : Nat) : ℚ) * 2 ^ half.lowestExponent := by
      simp [magnitude]
    rw [if_pos zero, if_pos zero, none]
    change single.Rounds _ (((0 : Nat) : ℚ) * 2 ^ half.lowestExponent) _
    rw [← isZero]
    exact rounds_exact single (by decide) _ (by decide)
  · obtain ⟨exp, isExp⟩ := Nat.exists_eq_add_of_le' (Nat.pos_of_ne_zero zero)
    have value := single_magnitude (exp + 112) (Nat.le_add_right 1024 (half.fraction bits))
      (by omega)
    have same : ((exp + 112 : Nat) : Int) - 136 =
        half.lowestExponent + ((half.exponentField bits : Int) - 1) := by
      have lowest : half.lowestExponent = -24 := by decide
      rw [lowest, isExp]
      push_cast
      ring
    rw [if_neg zero, if_neg zero]
    change single.Rounds _ ((1024 + half.fraction bits : Nat) * 2 ^ _) _
    rw [← same, ← value, Nat.add_sub_cancel_left, isExp]
    refine rounds_exact single (by decide) _ ?_
    change _ < 255 * 2 ^ 23
    omega

theorem subnormal_half_not_represents (subnormal : Subnormal bits) :
    ¬single.Represents (half.decode bits) (f16ToF32 bits) := by
  obtain ⟨shift, bound, least, most, converted⟩ := f16_to_f32_subnormal subnormal
  have isNotTop : half.exponentField bits ≠ half.topField := by
    rw [subnormal.1]
    decide
  have value := single_magnitude (112 - shift) least most
  have same : ((half.fraction bits * 2 ^ shift : Nat) : ℚ) * 2 ^ (((112 - shift : Nat) : Int) - 136) =
      half.fraction bits * 2 ^ half.lowestExponent := by
    have lowest : half.lowestExponent = -24 := by decide
    have exponent : ((112 - shift : Nat) : Int) - 136 = -24 - (shift : Nat) := by omega
    rw [lowest, exponent, zpow_sub₀ (by norm_num), zpow_natCast]
    push_cast
    rw [mul_assoc, mul_div_cancel₀ _ (by positivity)]
  unfold decode
  dsimp only
  rw [if_neg isNotTop, if_pos subnormal.1]
  intro represents
  change single.Rounds _ (half.fraction bits * 2 ^ half.lowestExponent) _ at represents
  rw [← same, ← value, converted] at represents
  have unique := rounds_unique single (by
    change _ < 255 * 2 ^ 23
    omega) represents
  omega

theorem half_represents_iff :
    single.Represents (half.decode bits) (f16ToF32 bits) ↔ ¬Subnormal bits := by
  constructor
  · exact fun represents subnormal => subnormal_half_not_represents subnormal represents
  · intro normal
    by_cases top : half.exponentField bits = 31
    · exact top_half_represents top
    · exact normal_half_represents top normal

end Half

section Others

open BinaryFormat

theorem double_represents (bits : Nat) : single.Represents (double.decode bits) (doubleAsF32 bits) := by
  unfold doubleAsF32
  cases decoded : double.decode bits with
  | finite negative significand exponent => exact round_rounds (by decide) _ _ _
  | infinite negative => rfl
  | nan negative payload =>
    have small : payload < 2 ^ 52 := (decode_nan double decoded).2
    have quiet : 2 ^ 22 ||| payload / 2 ^ 29 < 2 ^ single.fractionBits :=
      Nat.or_lt_two_pow (by decide) (by change _ < 2 ^ 23; omega)
    have some : 2 ^ 22 ||| payload / 2 ^ 29 ≠ 0 := by
      have least : 2 ^ 22 ≤ 2 ^ 22 ||| payload / 2 ^ 29 := Nat.left_le_or
      omega
    have isNan := decode_top_field negative quiet some
    rw [← Nat.add_assoc] at isNan
    exact isNan

theorem int_represents (number : Int) :
    single.Represents (.finite (number < 0) number.natAbs 0) (intAsF32 number) :=
  round_rounds (by decide) _ _ _

theorem bool_represents (bits : Nat) : single.Represents (.finite false (if bits = 0 then 0 else 1) 0)
      (if bits = 0 then 0 else 0x3f800000) := by
  have zero : single.round false 0 0 = 0 := by decide
  have one : single.round false 1 0 = 0x3f800000 := by decide
  split
  · have rounds : single.Rounds false _ _ := round_rounds (by decide) false 0 0
    rwa [zero] at rounds
  · have rounds : single.Rounds false _ _ := round_rounds (by decide) false 1 0
    rwa [one] at rounds

/-- Every element converts to the nearest number, half-precision subnormals
aside. -/
theorem StoredType.convert_represents_iff {stored : StoredType} {bits : Nat}
    (fits : bits < 256 ^ stored.size) : single.Represents (stored.datum bits) (stored.convert bits) ↔
      ¬(stored = .f2 ∧ Subnormal bits) := by
  cases stored with
  | f2 => exact half_represents_iff.trans (by simp)
  | f4 => exact iff_of_true (represents_decode single (by decide) fits) (by simp)
  | f8 => exact iff_of_true (double_represents bits) (by simp)
  | i1 | i2 | i4 | i8 => exact iff_of_true (int_represents _) (by simp)
  | u1 | u2 | u4 | u8 => exact iff_of_true (int_represents bits) (by simp)
  | bool => exact iff_of_true (bool_represents bits) (by simp)

end Others

end Panoptikon.Embedding
