import Panoptikon.Foundation.ByteWalk

/-!
# Bytes that are cut off

What a walk over the first bytes of a slice has to do with a walk over all of them, and
which of the pieces that a slice is put together from a cut leaves.
-/

namespace Foundation

/-- The first bytes of a slice. -/
def Slice.cut (slice : Slice) (count : Nat) : Slice :=
  ⟨slice.list.take count, Nat.lt_of_le_of_lt (List.length_take_le' _ _) slice.bounded⟩

theorem Slice.cut_length {slice : Slice} {count : Nat} (proper : count < slice.list.length) :
    (slice.cut count).list.length = count := by
  rw [Slice.cut, List.length_take, Nat.min_eq_left (Nat.le_of_lt proper)]

theorem take_behind {front : List UInt8} {width : Nat} (length : front.length = width) (rest : List UInt8)
    {count : Nat} (behind : width ≤ count) : (front ++ rest).take count = front ++ rest.take (count - width) := by
  rw [List.take_append, length, List.take_of_length_le (by rw [length]; exact behind)]

theorem take_within {front : List UInt8} (rest : List UInt8) {count : Nat} (within : count ≤ front.length) :
    (front ++ rest).take count = front.take count := by
  rw [List.take_append, Nat.sub_eq_zero_of_le within, List.take_zero, List.append_nil]

theorem range_cut {bytes : List UInt8} {start stop : Nat} (beyond : bytes.length < stop) :
    rangeAt bytes start stop = .error .malformed := by
  rw [rangeAt, if_neg (by omega)]

/-- Whatever the shorter walk returns, the longer one returns. -/
def Grows {Result : Type} (walk longer : Walk Result) : Prop := ∀ result, walk = .ok result → longer = .ok result

section Growth

variable {Result Next : Type} {bytes longer : List UInt8}

theorem Grows.same (walk : Walk Result) : Grows walk walk := fun _ returned => returned

theorem Grows.halt (halt : Halt) (walk : Walk Result) : Grows (.error halt) walk := by
  intro result returned
  cases returned

theorem Grows.bind {walk walk' : Walk Result} {next next' : Result → Walk Next} (grows : Grows walk walk')
    (later : ∀ result, Grows (next result) (next' result)) : Grows (walk >>= next) (walk' >>= next') := by
  intro final returned
  cases isWalk : walk with
  | error halt =>
    rw [isWalk] at returned
    cases returned
  | ok result =>
    rw [isWalk] at returned
    rw [grows result isWalk]
    exact later result final returned

theorem getElem?_grows (isPrefix : bytes <+: longer) {place : Nat} {byte : UInt8}
    (there : bytes[place]? = some byte) : longer[place]? = some byte := by
  obtain ⟨more, same⟩ := isPrefix
  have inside := (List.getElem?_eq_some_iff.mp there).1
  rw [← same, List.getElem?_append_left inside, there]

theorem grows_byte_at (isPrefix : bytes <+: longer) (place : Nat) :
    Grows (byteAt bytes place) (byteAt longer place) := by
  intro byte returned
  unfold byteAt at returned ⊢
  cases there : bytes[place]? with
  | none =>
    rw [there] at returned
    cases returned
  | some found =>
    rw [there] at returned
    rw [getElem?_grows isPrefix there]
    exact returned

theorem grows_indexed (isPrefix : bytes <+: longer) (place : Nat) :
    Grows (indexed bytes place) (indexed longer place) := by
  intro byte returned
  unfold indexed at returned ⊢
  cases there : bytes[place]? with
  | none =>
    rw [there] at returned
    cases returned
  | some found =>
    rw [there] at returned
    rw [getElem?_grows isPrefix there]
    exact returned

theorem grows_sliced_at (isPrefix : bytes <+: longer) (start stop : Nat) :
    Grows (slicedAt bytes start stop) (slicedAt longer start stop) := by
  have shorter := isPrefix.length_le
  unfold slicedAt
  split
  · rename_i inside
    obtain ⟨more, same⟩ := isPrefix
    rw [if_pos ⟨inside.1, Nat.le_trans inside.2 shorter⟩, ← same, List.take_append_of_le_length inside.2]
    exact Grows.same _
  · exact Grows.halt _ _

theorem Grows.if_halt {short long : Prop} [Decidable short] [Decidable long] {walk walk' : Walk Result} (halt : Halt)
    (later : long → short) (grows : Grows walk walk') :
    Grows (if short then .error halt else walk) (if long then .error halt else walk') := by
  by_cases isShort : short
  · rw [if_pos isShort]
    exact Grows.halt _ _
  · rw [if_neg isShort, if_neg fun isLong => isShort (later isLong)]
    exact grows

end Growth

section Remains

variable {Piece : Type} (width : Piece → Nat) (tolerates : Piece → Nat → Bool)

/-- The pieces that a cut leaves, with how many of their bytes: whole pieces, and a part of the next one where
that is tolerated. -/
def remains : Nat → List Piece → Option (List (Piece × Nat))
  | 0, _ => some []
  | _, [] => some []
  | count + 1, piece :: later =>
      if width piece ≤ count + 1 then
        (remains (count + 1 - width piece) later).map fun left => (piece, width piece) :: left
      else if tolerates piece (count + 1) then some [(piece, count + 1)]
      else none

theorem remains_opening {count : Nat} {pieces : List Piece} {left : List (Piece × Nat)}
    (isLeft : remains width tolerates count pieces = some left) : left.map Prod.fst <+: pieces := by
  induction pieces generalizing count left with
  | nil => cases count <;> cases isLeft <;> exact List.nil_prefix
  | cons piece later ih =>
    cases count with
    | zero =>
      cases isLeft
      exact List.nil_prefix
    | succ count =>
      rw [remains] at isLeft
      split at isLeft
      · obtain ⟨rest, isRest, rfl⟩ := Option.map_eq_some_iff.mp isLeft
        exact (List.prefix_cons_inj piece).mpr (ih isRest)
      · split at isLeft
        · cases isLeft
          exact (List.prefix_cons_inj piece).mpr List.nil_prefix
        · cases isLeft

end Remains

end Foundation
