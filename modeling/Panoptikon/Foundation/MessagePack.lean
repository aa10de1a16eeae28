import Mathlib.Algebra.GroupWithZero.Nat
import Mathlib.Algebra.Ring.Int.Defs

/-!
# MessagePack

The heads of the MessagePack specification, each in its shortest form, and how
long they are beside the decimal digits and the quotes of a JSON text.
-/

namespace Foundation.MessagePack

/-- As many bytes of a number, the greatest first. -/
def bigEndian : Nat → Nat → List UInt8
  | 0, _ => []
  | size + 1, value => UInt8.ofNat (value / 256 ^ size) :: bigEndian size value

theorem big_endian_length (size value : Nat) : (bigEndian size value).length = size := by
  induction size with
  | zero => rfl
  | succ size ih => rw [bigEndian, List.length_cons, ih]

def packUInt (value : Nat) : List UInt8 :=
  if value < 128 then [UInt8.ofNat value]
  else if value < 2 ^ 8 then 0xcc :: bigEndian 1 value
  else if value < 2 ^ 16 then 0xcd :: bigEndian 2 value
  else if value < 2 ^ 32 then 0xce :: bigEndian 4 value
  else 0xcf :: bigEndian 8 value

/-- A negative number is in two's complement. -/
def packInt (value : Int) : List UInt8 :=
  if 0 ≤ value then packUInt value.toNat
  else if -32 ≤ value then bigEndian 1 (value + 2 ^ 8).toNat
  else if -(2 ^ 7) ≤ value then 0xd0 :: bigEndian 1 (value + 2 ^ 8).toNat
  else if -(2 ^ 15) ≤ value then 0xd1 :: bigEndian 2 (value + 2 ^ 16).toNat
  else if -(2 ^ 31) ≤ value then 0xd2 :: bigEndian 4 (value + 2 ^ 32).toNat
  else 0xd3 :: bigEndian 8 (value + 2 ^ 64).toNat

def stringHead (length : Nat) : List UInt8 :=
  if length < 32 then [UInt8.ofNat (0xa0 + length)]
  else if length < 2 ^ 8 then 0xd9 :: bigEndian 1 length
  else if length < 2 ^ 16 then 0xda :: bigEndian 2 length
  else 0xdb :: bigEndian 4 length

def binaryHead (length : Nat) : List UInt8 :=
  if length < 2 ^ 8 then 0xc4 :: bigEndian 1 length
  else if length < 2 ^ 16 then 0xc5 :: bigEndian 2 length
  else 0xc6 :: bigEndian 4 length

def arrayHead (count : Nat) : List UInt8 :=
  if count < 16 then [UInt8.ofNat (0x90 + count)]
  else if count < 2 ^ 16 then 0xdc :: bigEndian 2 count
  else 0xdd :: bigEndian 4 count

def mapHead (count : Nat) : List UInt8 :=
  if count < 16 then [UInt8.ofNat (0x80 + count)]
  else if count < 2 ^ 16 then 0xde :: bigEndian 2 count
  else 0xdf :: bigEndian 4 count

def extHead (length : Nat) : List UInt8 :=
  if length = 1 then [0xd4]
  else if length = 2 then [0xd5]
  else if length = 4 then [0xd6]
  else if length = 8 then [0xd7]
  else if length = 16 then [0xd8]
  else if length < 2 ^ 8 then 0xc7 :: bigEndian 1 length
  else if length < 2 ^ 16 then 0xc8 :: bigEndian 2 length
  else 0xc9 :: bigEndian 4 length

theorem pack_uint_length (value : Nat) :
    (packUInt value).length = if value < 128 then 1 else if value < 2 ^ 8 then 2 else if value < 2 ^ 16 then 3
      else if value < 2 ^ 32 then 5 else 9 := by
  unfold packUInt
  split_ifs
  · rfl
  all_goals rw [List.length_cons, big_endian_length]

theorem pack_uint_length_le (value : Nat) : (packUInt value).length ≤ 9 := by
  rw [pack_uint_length]
  split_ifs
  all_goals omega

theorem pack_int_length {value : Int} (negative : value < 0) :
    (packInt value).length = if -32 ≤ value then 1 else if -(2 ^ 7) ≤ value then 2 else if -(2 ^ 15) ≤ value then 3
      else if -(2 ^ 31) ≤ value then 5 else 9 := by
  rw [packInt, if_neg (by omega)]
  split_ifs
  · rw [big_endian_length]
  all_goals rw [List.length_cons, big_endian_length]

theorem string_head_length (length : Nat) :
    (stringHead length).length = if length < 32 then 1 else if length < 2 ^ 8 then 2 else if length < 2 ^ 16 then 3
      else 5 := by
  unfold stringHead
  split_ifs
  · rfl
  all_goals rw [List.length_cons, big_endian_length]

theorem binary_head_length_le (length : Nat) : (binaryHead length).length ≤ 5 := by
  unfold binaryHead
  split_ifs
  · rw [List.length_cons, big_endian_length]
    omega
  · rw [List.length_cons, big_endian_length]
    omega
  · rw [List.length_cons, big_endian_length]

variable (count : Nat)

theorem array_head_length :
    (arrayHead count).length = if count < 16 then 1 else if count < 2 ^ 16 then 3 else 5 := by
  unfold arrayHead
  split_ifs
  · rfl
  all_goals rw [List.length_cons, big_endian_length]

theorem map_head_length : (mapHead count).length = if count < 16 then 1 else if count < 2 ^ 16 then 3 else 5 := by
  unfold mapHead
  split_ifs
  · rfl
  all_goals rw [List.length_cons, big_endian_length]

theorem digits_length_gt {value power : Nat} (positive : 0 < power) (large : 10 ^ power ≤ value) :
    power < (Nat.toDigits 10 value).length := by
  by_contra short
  have small := (Nat.length_toDigits_le_iff (by omega : 1 < 10) positive).mp (Nat.le_of_not_lt short)
  omega

theorem pack_uint_length_le_digits (value : Nat) : (packUInt value).length ≤ (Nat.toDigits 10 value).length := by
  rw [pack_uint_length]
  split_ifs with one two three five
  · exact Nat.length_toDigits_pos
  · exact @digits_length_gt value 1 (by omega) (by omega)
  · exact @digits_length_gt value 2 (by omega) (by omega)
  · exact @digits_length_gt value 4 (by omega) (by omega)
  · exact @digits_length_gt value 8 (by omega) (by omega)

theorem pack_int_length_le_digits {value : Int} (negative : value < 0) :
    (packInt value).length ≤ (Nat.toDigits 10 value.natAbs).length + 1 := by
  rw [pack_int_length negative]
  have digit : 0 < (Nat.toDigits 10 value.natAbs).length := Nat.length_toDigits_pos
  split_ifs with one two three five
  · omega
  · omega
  · have digits := @digits_length_gt value.natAbs 1 (by omega) (by omega)
    omega
  · have digits := @digits_length_gt value.natAbs 3 (by omega) (by omega)
    omega
  · have digits := @digits_length_gt value.natAbs 7 (by omega) (by omega)
    omega

/-- The head of a string is about as long as two quotes, and a longer head comes with a
much longer string. -/
theorem string_head_length_le (length : Nat) :
    15 * (stringHead length).length ≤ 15 * 2 + 14 + (length + 2) / 258 := by
  rw [string_head_length]
  split_ifs
  all_goals omega

theorem array_head_length_le : 15 * (arrayHead count).length ≤ count + 29 := by
  rw [array_head_length]
  split_ifs
  all_goals omega

theorem map_head_length_le : 15 * (mapHead count).length ≤ count + 29 := by
  rw [map_head_length]
  split_ifs
  all_goals omega

end Foundation.MessagePack
