import Panoptikon.Foundation.TextParts
import Mathlib.Data.List.GetD

/-!
# Bytes written as text

Hexadecimal digits, two a byte, and base64 without padding, four characters for three
bytes. Both read a character as its position in an alphabet.
-/

namespace Foundation

/-- Distinct characters, each of which stands for its position. -/
structure Alphabet where
  chars : Text
  distinct : chars.Nodup

namespace Alphabet

variable (alphabet : Alphabet)

def digit (value : Nat) : Char := alphabet.chars.getD value '?'

def value? (char : Char) : Option Nat :=
  if alphabet.chars.elem char then some (alphabet.chars.idxOf char) else none

theorem digit_mem {value : Nat} (isValue : value < alphabet.chars.length) : alphabet.digit value ∈ alphabet.chars := by
  rw [digit, List.getD_eq_getElem _ _ isValue]
  exact List.getElem_mem isValue

theorem value_digit {value : Nat} (isValue : value < alphabet.chars.length) :
    alphabet.value? (alphabet.digit value) = some value := by
  rw [value?, if_pos (List.elem_iff.mpr (alphabet.digit_mem isValue)), digit, List.getD_eq_getElem _ _ isValue,
    alphabet.distinct.idxOf_getElem]

end Alphabet

namespace Hex

def alphabet : Alphabet := ⟨"0123456789abcdef".toList, by decide⟩

/-- A letter counts in either case. -/
def value? (char : Char) : Option Nat := alphabet.value? char.toLower

def encodeByte (byte : UInt8) : Text := [alphabet.digit (byte.toNat / 16), alphabet.digit (byte.toNat % 16)]

def encode (bytes : List UInt8) : Text := bytes.flatMap encodeByte

/-- Two digits a byte, and none left over. -/
def decode : Text → Option (List UInt8)
  | [] => some []
  | [_] => none
  | high :: low :: rest => do
      let first ← value? high
      let second ← value? low
      let bytes ← decode rest
      return UInt8.ofNat (16 * first + second) :: bytes

theorem value_digit {value : Nat} (small : value < 16) : value? (alphabet.digit value) = some value := by
  have lower : ∀ value : Fin 16, (alphabet.digit value).toLower = alphabet.digit value := by decide
  rw [value?, lower ⟨value, small⟩]
  exact alphabet.value_digit small

theorem decode_encode (bytes : List UInt8) : decode (encode bytes) = some bytes := by
  induction bytes with
  | nil => rfl
  | cons byte rest ih =>
    have high : byte.toNat / 16 < 16 := by
      have small := byte.toNat_lt
      omega
    have low : byte.toNat % 16 < 16 := Nat.mod_lt byte.toNat (by decide)
    have whole : UInt8.ofNat (16 * (byte.toNat / 16) + byte.toNat % 16) = byte := by
      rw [Nat.div_add_mod, UInt8.ofNat_toNat]
    have split : encode (byte :: rest) =
        alphabet.digit (byte.toNat / 16) :: alphabet.digit (byte.toNat % 16) :: encode rest := rfl
    rw [split, decode, value_digit high, value_digit low, ih]
    exact congrArg (fun first => some (first :: rest)) whole

theorem encode_chars {bytes : List UInt8} {char : Char} (isIn : char ∈ encode bytes) : char ∈ alphabet.chars := by
  obtain ⟨byte, -, isDigit⟩ := List.mem_flatMap.mp isIn
  have small := byte.toNat_lt
  rcases List.mem_cons.mp isDigit with rfl | isLow
  · apply alphabet.digit_mem
    change byte.toNat / 16 < 16
    omega
  · rw [List.mem_singleton.mp isLow]
    exact alphabet.digit_mem (Nat.mod_lt byte.toNat (by decide))

end Hex

namespace Base64

/-- The alphabet for URLs. -/
def alphabet : Alphabet :=
  ⟨"ABCDEFGHIJKLMNOPQRSTUVWXYZabcdefghijklmnopqrstuvwxyz0123456789-_".toList, by decide⟩

/-- Without padding: two characters for one byte at the end, three for two. -/
def encode : List UInt8 → Text
  | [] => []
  | [first] => [alphabet.digit (first.toNat / 4), alphabet.digit (first.toNat % 4 * 16)]
  | [first, second] =>
      [alphabet.digit (first.toNat / 4), alphabet.digit (first.toNat % 4 * 16 + second.toNat / 16),
        alphabet.digit (second.toNat % 16 * 4)]
  | first :: second :: third :: rest =>
      alphabet.digit (first.toNat / 4) :: alphabet.digit (first.toNat % 4 * 16 + second.toNat / 16) ::
        alphabet.digit (second.toNat % 16 * 4 + third.toNat / 64) :: alphabet.digit (third.toNat % 64) :: encode rest

/-- Padding, a lone character and bits left over are refused. -/
def decode : Text → Option (List UInt8)
  | [] => some []
  | [_] => none
  | [first, second] => do
      let high ← alphabet.value? first
      let low ← alphabet.value? second
      if low % 16 = 0 then some [UInt8.ofNat (4 * high + low / 16)] else none
  | [first, second, third] => do
      let high ← alphabet.value? first
      let middle ← alphabet.value? second
      let low ← alphabet.value? third
      if low % 4 = 0 then
        some [UInt8.ofNat (4 * high + middle / 16), UInt8.ofNat (middle % 16 * 16 + low / 4)]
      else none
  | first :: second :: third :: fourth :: rest => do
      let high ← alphabet.value? first
      let middle ← alphabet.value? second
      let low ← alphabet.value? third
      let last ← alphabet.value? fourth
      let bytes ← decode rest
      return UInt8.ofNat (4 * high + middle / 16) :: UInt8.ofNat (middle % 16 * 16 + low / 4) ::
        UInt8.ofNat (low % 4 * 64 + last) :: bytes

theorem byte_eq {byte : UInt8} {value : Nat} (same : value = byte.toNat) : UInt8.ofNat value = byte := by
  rw [same, UInt8.ofNat_toNat]

theorem decode_encode (bytes : List UInt8) : decode (encode bytes) = some bytes := by
  have digit {value : Nat} (small : value < 64) : alphabet.value? (alphabet.digit value) = some value :=
    alphabet.value_digit small
  induction bytes using encode.induct with
  | case1 => rfl
  | case2 first =>
    have small := first.toNat_lt
    have whole : UInt8.ofNat (4 * (first.toNat / 4) + first.toNat % 4 * 16 / 16) = first := byte_eq (by omega)
    rw [encode, decode, digit (by omega), digit (by omega)]
    simp only [Option.bind_eq_bind, Option.bind_some]
    rw [if_pos (Nat.mul_mod_left _ _), whole]
  | case3 first second =>
    have small := first.toNat_lt
    have secondSmall := second.toNat_lt
    have whole : UInt8.ofNat (4 * (first.toNat / 4) + (first.toNat % 4 * 16 + second.toNat / 16) / 16) = first :=
      byte_eq (by omega)
    have secondWhole : UInt8.ofNat ((first.toNat % 4 * 16 + second.toNat / 16) % 16 * 16 +
        second.toNat % 16 * 4 / 4) = second := byte_eq (by omega)
    rw [encode, decode, digit (by omega), digit (by omega), digit (by omega)]
    simp only [Option.bind_eq_bind, Option.bind_some]
    rw [if_pos (Nat.mul_mod_left _ _), whole, secondWhole]
  | case4 first second third rest ih =>
    have small := first.toNat_lt
    have secondSmall := second.toNat_lt
    have thirdSmall := third.toNat_lt
    have whole : UInt8.ofNat (4 * (first.toNat / 4) + (first.toNat % 4 * 16 + second.toNat / 16) / 16) = first :=
      byte_eq (by omega)
    have secondWhole : UInt8.ofNat ((first.toNat % 4 * 16 + second.toNat / 16) % 16 * 16 +
        (second.toNat % 16 * 4 + third.toNat / 64) / 4) = second := byte_eq (by omega)
    have thirdWhole : UInt8.ofNat ((second.toNat % 16 * 4 + third.toNat / 64) % 4 * 64 + third.toNat % 64) = third :=
      byte_eq (by omega)
    rw [encode, decode, digit (by omega), digit (by omega), digit (by omega), digit (by omega), ih]
    simp only [Option.bind_eq_bind, Option.bind_some]
    rw [whole, secondWhole, thirdWhole]
    rfl

theorem encode_chars (bytes : List UInt8) : ∀ char ∈ encode bytes, char ∈ alphabet.chars := by
  have digit {value : Nat} (small : value < 64) : alphabet.digit value ∈ alphabet.chars := alphabet.digit_mem small
  induction bytes using encode.induct with
  | case1 =>
    intro char absent
    cases absent
  | case2 first =>
    have small := first.toNat_lt
    rw [encode, List.forall_mem_cons, List.forall_mem_singleton]
    exact ⟨digit (by omega), digit (by omega)⟩
  | case3 first second =>
    have small := first.toNat_lt
    have secondSmall := second.toNat_lt
    rw [encode, List.forall_mem_cons, List.forall_mem_cons, List.forall_mem_singleton]
    exact ⟨digit (by omega), digit (by omega), digit (by omega)⟩
  | case4 first second third rest ih =>
    have small := first.toNat_lt
    have secondSmall := second.toNat_lt
    have thirdSmall := third.toNat_lt
    rw [encode, List.forall_mem_cons, List.forall_mem_cons, List.forall_mem_cons, List.forall_mem_cons]
    exact ⟨digit (by omega), digit (by omega), digit (by omega), digit (by omega), ih⟩

end Base64

end Foundation
