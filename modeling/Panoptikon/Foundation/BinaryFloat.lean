import Mathlib.Algebra.Order.Field.Rat
import Mathlib.Data.Nat.Log

/-!
# Binary floating-point formats

A bit pattern of a binary interchange format and the number it stands for, and
the pattern a number `significand * 2 ^ exponent` is rounded to: the nearest
one, ties to the even pattern, with overflow to infinity.
-/

namespace Foundation

structure BinaryFormat where
  fractionBits : Nat
  exponentBits : Nat

namespace BinaryFormat

def half : BinaryFormat := ⟨10, 5⟩

def single : BinaryFormat := ⟨23, 8⟩

def double : BinaryFormat := ⟨52, 11⟩

variable (format : BinaryFormat)

/-- The exponent field of infinities and NaNs. -/
def topField : Nat := 2 ^ format.exponentBits - 1

/-- The exponent of the last place of a subnormal. -/
def lowestExponent : Int := 2 - 2 ^ (format.exponentBits - 1) - format.fractionBits

def fraction (bits : Nat) : Nat := bits % 2 ^ format.fractionBits

def exponentField (bits : Nat) : Nat :=
  bits / 2 ^ format.fractionBits % 2 ^ format.exponentBits

def isNegative (bits : Nat) : Bool :=
  bits / 2 ^ (format.fractionBits + format.exponentBits) % 2 = 1

def signBit (negative : Bool) : Nat :=
  if negative then 2 ^ (format.fractionBits + format.exponentBits) else 0

end BinaryFormat

/-- What a bit pattern stands for. -/
inductive Datum where
  | finite (negative : Bool) (significand : Nat) (exponent : Int)
  | infinite (negative : Bool)
  | nan (negative : Bool) (payload : Nat)
deriving DecidableEq

def BinaryFormat.decode (format : BinaryFormat) (bits : Nat) : Datum :=
  let negative := format.isNegative bits
  let fraction := format.fraction bits
  let field := format.exponentField bits
  if field = format.topField then
    if fraction = 0 then .infinite negative else .nan negative fraction
  else if field = 0 then .finite negative fraction format.lowestExponent
  else .finite negative (2 ^ format.fractionBits + fraction) (format.lowestExponent + (field - 1))

/-- The number a finite datum stands for. -/
def Datum.value : Datum → Option ℚ
  | .finite negative significand exponent =>
      some ((if negative then -1 else 1) * (significand * 2 ^ exponent))
  | _ => none

/-- `number / 2 ^ shift`, to nearest, ties to even. -/
def roundShift (number shift : Nat) : Nat :=
  let quotient := number / 2 ^ shift
  let rest := number % 2 ^ shift
  if 2 * rest < 2 ^ shift then quotient
  else if 2 ^ shift < 2 * rest then quotient + 1
  else quotient + quotient % 2

namespace BinaryFormat

variable (format : BinaryFormat)

/-- The exponent of the last place a number is rounded to. -/
def unit (significand : Nat) (exponent : Int) : Int :=
  max (Nat.log 2 significand + exponent - format.fractionBits) format.lowestExponent

/-- The places kept of a number. -/
def keep (significand : Nat) (exponent : Int) : Nat :=
  let unit := format.unit significand exponent
  if unit ≤ exponent then significand * 2 ^ (exponent - unit).toNat
  else roundShift significand (unit - exponent).toNat

/-- A carry out of the kept places moves into the exponent field by itself. -/
def roundMagnitude (significand : Nat) (exponent : Int) : Nat :=
  min ((format.unit significand exponent - format.lowestExponent).toNat * 2 ^ format.fractionBits +
      format.keep significand exponent)
    (format.topField * 2 ^ format.fractionBits)

def round (negative : Bool) (significand : Nat) (exponent : Int) : Nat :=
  format.signBit negative +
    if significand = 0 then 0 else format.roundMagnitude significand exponent

/-- The number a pattern without its sign stands for, were the exponent field
unbounded. -/
def magnitude (pattern : Nat) : ℚ :=
  if pattern / 2 ^ format.fractionBits = 0 then pattern * 2 ^ format.lowestExponent
  else (2 ^ format.fractionBits + pattern % 2 ^ format.fractionBits : Nat) *
    2 ^ (format.lowestExponent + ((pattern / 2 ^ format.fractionBits : Nat) - 1 : Int))

/-- The nearest pattern, and of two as near the even one. -/
structure Nearest (number : ℚ) (pattern : Nat) : Prop where
  nearest : ∀ other, |number - format.magnitude pattern| ≤ |number - format.magnitude other|
  even : ∀ other, other ≠ pattern →
    |number - format.magnitude pattern| = |number - format.magnitude other| → Even pattern

/-- Rounded with an unbounded exponent, and to infinity when that is too large. -/
def Rounds (negative : Bool) (number : ℚ) (bits : Nat) : Prop :=
  ∃ pattern, format.Nearest number pattern ∧
    bits = format.signBit negative + min pattern (format.topField * 2 ^ format.fractionBits)

/-- What bits stand for a datum, rounded where the format does not have it. -/
def Represents : Datum → Nat → Prop
  | .finite negative significand exponent, bits =>
      format.Rounds negative (significand * 2 ^ exponent) bits
  | .infinite negative, bits =>
      bits = format.signBit negative + format.topField * 2 ^ format.fractionBits
  | .nan _ _, bits => ∃ negative payload, format.decode bits = .nan negative payload

end BinaryFormat

end Foundation
