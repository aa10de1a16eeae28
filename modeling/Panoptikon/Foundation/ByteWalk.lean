import Mathlib.Data.List.Basic
import Mathlib.Tactic.Ring

/-!
# Walking a slice of bytes

A walk reads bytes at places it computes. It ends with a result, because the
bytes are not what it expects, or, wrongly, with a place that no machine word
holds, an index out of bounds or a walk that never ends. `Settles` is the
postcondition of a walk that does none of the latter, and `Ahead` says what
bytes a place has before it.
-/

namespace Foundation

/-- A slice, which holds at most `isize::MAX` bytes. -/
structure Slice where
  list : List UInt8
  bounded : list.length < 2 ^ 63

inductive Halt where
  | malformed
  | overflow
  | outOfBounds
  | unfinished
deriving DecidableEq

abbrev Walk := Except Halt

/-- A sum of the machine's word. -/
def advance (place step : Nat) : Walk Nat :=
  if place + step < 2 ^ 64 then .ok (place + step) else .error .overflow

/-- A `get` of one byte, behind a question mark. -/
def byteAt (bytes : List UInt8) (place : Nat) : Walk UInt8 :=
  match bytes[place]? with
  | some byte => .ok byte
  | none => .error .malformed

/-- A `get` of a range, behind a question mark. -/
def rangeAt (bytes : List UInt8) (start stop : Nat) : Walk (List UInt8) :=
  if start ≤ stop ∧ stop ≤ bytes.length then .ok ((bytes.take stop).drop start)
  else .error .malformed

/-- An index. -/
def indexed (bytes : List UInt8) (place : Nat) : Walk UInt8 :=
  match bytes[place]? with
  | some byte => .ok byte
  | none => .error .outOfBounds

/-- A slicing expression. -/
def slicedAt (bytes : List UInt8) (start stop : Nat) : Walk (List UInt8) :=
  if start ≤ stop ∧ stop ≤ bytes.length then .ok ((bytes.take stop).drop start)
  else .error .outOfBounds

def readWord : List UInt8 → Nat
  | [] => 0
  | low :: rest => low.toNat + 256 * readWord rest

def writeWord : Nat → Nat → List UInt8
  | 0, _ => []
  | width + 1, word => UInt8.ofNat word :: writeWord width (word / 256)

@[simp] theorem write_word_length (width word : Nat) : (writeWord width word).length = width := by
  induction width generalizing word with
  | zero => rfl
  | succ width ih => rw [writeWord, List.length_cons, ih]

theorem read_write_word {width word : Nat} (fits : word < 256 ^ width) :
    readWord (writeWord width word) = word := by
  induction width generalizing word with
  | zero =>
    rw [pow_zero] at fits
    rw [writeWord, readWord]
    omega
  | succ width ih =>
    have high : word / 256 < 256 ^ width := by
      rw [pow_succ] at fits
      exact Nat.div_lt_of_lt_mul (by rwa [Nat.mul_comm])
    rw [writeWord, readWord, ih high, UInt8.toNat_ofNat']
    omega

def readBig (bytes : List UInt8) : Nat := readWord bytes.reverse

def writeBig (width word : Nat) : List UInt8 := (writeWord width word).reverse

@[simp] theorem write_big_length (width word : Nat) : (writeBig width word).length = width := by
  rw [writeBig, List.length_reverse, write_word_length]

theorem read_write_big {width word : Nat} (fits : word < 256 ^ width) : readBig (writeBig width word) = word := by
  rw [readBig, writeBig, List.reverse_reverse, read_write_word fits]

/-- What stands at a place of the bytes, up to their end. -/
def Ahead (bytes : List UInt8) (place : Nat) (rest : List UInt8) : Prop :=
  ∃ passed, bytes = passed ++ rest ∧ passed.length = place

namespace Ahead

variable {bytes chunk rest : List UInt8} {place : Nat} {byte : UInt8}

theorem start (bytes : List UInt8) : Ahead bytes 0 bytes := ⟨[], rfl, rfl⟩

theorem pass (ahead : Ahead bytes place (chunk ++ rest)) : Ahead bytes (place + chunk.length) rest := by
  obtain ⟨passed, same, length⟩ := ahead
  exact ⟨passed ++ chunk, by rw [same, List.append_assoc], by rw [List.length_append, length]⟩

theorem pass_of_length {width : Nat} (ahead : Ahead bytes place (chunk ++ rest))
    (length : chunk.length = width) : Ahead bytes (place + width) rest :=
  length ▸ ahead.pass

theorem pass_one (ahead : Ahead bytes place (byte :: rest)) : Ahead bytes (place + 1) rest :=
  (show Ahead bytes place ([byte] ++ rest) from ahead).pass

theorem length_eq (ahead : Ahead bytes place rest) : bytes.length = place + rest.length := by
  obtain ⟨passed, same, length⟩ := ahead
  rw [same, List.length_append, length]

theorem getElem? (ahead : Ahead bytes place rest) (further : Nat) : bytes[place + further]? = rest[further]? := by
  obtain ⟨passed, same, length⟩ := ahead
  rw [same, ← length, List.getElem?_append_right (Nat.le_add_right _ _), Nat.add_sub_cancel_left]

theorem byte_at (ahead : Ahead bytes place (byte :: rest)) : byteAt bytes place = .ok byte := by
  have here := ahead.getElem? 0
  rw [Nat.add_zero, List.getElem?_cons_zero] at here
  rw [byteAt, here]

theorem byte_further {further : Nat} (ahead : Ahead bytes place rest) (there : rest[further]? = some byte) :
    byteAt bytes (place + further) = .ok byte := by
  rw [byteAt, ahead.getElem?, there]

variable {stop : Nat}

section

variable (ahead : Ahead bytes place (chunk ++ rest))

include ahead

theorem take_drop (width : stop = place + chunk.length) :
    (place ≤ stop ∧ stop ≤ bytes.length) ∧ (bytes.take stop).drop place = chunk := by
  have total := ahead.length_eq
  rw [List.length_append] at total
  refine ⟨⟨by omega, by omega⟩, ?_⟩
  obtain ⟨passed, same, length⟩ := ahead
  rw [same, width, ← length, ← List.append_assoc, ← List.length_append, List.take_left, List.drop_left]

theorem range_at (width : stop = place + chunk.length) : rangeAt bytes place stop = .ok chunk := by
  rw [rangeAt, if_pos (ahead.take_drop width).1, (ahead.take_drop width).2]

theorem sliced_at (width : stop = place + chunk.length) : slicedAt bytes place stop = .ok chunk := by
  rw [slicedAt, if_pos (ahead.take_drop width).1, (ahead.take_drop width).2]

end

theorem indexed (ahead : Ahead bytes place (byte :: rest)) : Foundation.indexed bytes place = .ok byte := by
  have here := ahead.getElem? 0
  rw [Nat.add_zero, List.getElem?_cons_zero] at here
  rw [Foundation.indexed, here]

theorem advance {step : Nat} (ahead : Ahead bytes place rest) (bounded : bytes.length < 2 ^ 63)
    (inside : step < 2 ^ 63) : Foundation.advance place step = .ok (place + step) := by
  have total := ahead.length_eq
  rw [Foundation.advance, if_pos (by omega)]

end Ahead

/-- Where a `None` stays a value. -/
def attempt {Result : Type} : Walk Result → Walk (Option Result)
  | .ok result => .ok (some result)
  | .error .malformed => .ok none
  | .error halt => .error halt

/-- The walk gives what holds of its result, or finds its bytes malformed. -/
def Settles {Result : Type} (Holds : Result → Prop) : Walk Result → Prop
  | .ok result => Holds result
  | .error halt => halt = .malformed

section

variable {Result Next : Type} {Holds : Result → Prop} {Later : Next → Prop}

theorem Settles.bind {first : Walk Result} {next : Result → Walk Next} (settles : Settles Holds first)
    (later : ∀ result, Holds result → Settles Later (next result)) : Settles Later (first >>= next) := by
  cases first with
  | error halt => exact settles
  | ok result => exact later result settles

variable {walk : Walk Result}

theorem Settles.weaken {Weaker : Result → Prop} (settles : Settles Holds walk)
    (weaker : ∀ result, Holds result → Weaker result) : Settles Weaker walk := by
  cases walk with
  | error halt => exact settles
  | ok result => exact weaker result settles

theorem Settles.cases (settles : Settles Holds walk) :
    (∃ result, walk = .ok result ∧ Holds result) ∨ walk = .error .malformed := by
  cases walk with
  | error halt => exact .inr (congrArg Except.error settles)
  | ok result => exact .inl ⟨result, rfl, settles⟩

theorem settles_attempt (settles : Settles Holds walk) : Settles (fun _ => True) (attempt walk) := by
  obtain ⟨result, returned, -⟩ | malformed := settles.cases
  · rw [returned]
    trivial
  · rw [malformed]
    trivial

theorem settles_byte_at (bytes : List UInt8) (place : Nat) :
    Settles (fun _ => place < bytes.length) (byteAt bytes place) := by
  rw [byteAt]
  split
  · rename_i byte there
    exact (List.getElem?_eq_some_iff.mp there).1
  · rfl

theorem settles_range_at (bytes : List UInt8) (start stop : Nat) :
    Settles (fun range => stop ≤ bytes.length ∧ range.length = stop - start) (rangeAt bytes start stop) := by
  rw [rangeAt]
  split
  · rename_i inside
    refine ⟨inside.2, ?_⟩
    rw [List.length_drop, List.length_take, Nat.min_eq_left inside.2]
  · rfl

theorem settles_indexed {bytes : List UInt8} {place : Nat} (inside : place < bytes.length) :
    Settles (fun _ => True) (indexed bytes place) := by
  rw [indexed, List.getElem?_eq_getElem inside]
  trivial

theorem settles_sliced_at {bytes : List UInt8} {start stop : Nat} (ordered : start ≤ stop)
    (inside : stop ≤ bytes.length) :
    Settles (fun range => range.length = stop - start) (slicedAt bytes start stop) := by
  rw [slicedAt, if_pos ⟨ordered, inside⟩]
  show ((bytes.take stop).drop start).length = stop - start
  rw [List.length_drop, List.length_take, Nat.min_eq_left inside]

theorem settles_advance {place step : Nat} (fits : place + step < 2 ^ 64) :
    Settles (fun next => next = place + step) (advance place step) := by
  rw [advance, if_pos fits]
  rfl

end

end Foundation
