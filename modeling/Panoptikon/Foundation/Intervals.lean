import Mathlib.Data.Nat.Basic
import Mathlib.Data.List.Basic

/-!
# Half-open intervals: ascending families and trimming

An interval `[first, second)` is a pair of positions. A family is `Ascending`
between two bounds when its members are non-empty, stay within the bounds and
follow one another. `trim` cuts the parts of a window that an ascending family
of occupied intervals leaves free, handing each free part to a splitter; what
comes out is ascending, misses every occupied interval, and together with the
occupied ones covers the window.
-/

namespace Foundation.Intervals

abbrev Interval := Nat × Nat

/-- `position` lies in one of the intervals. -/
def Covers (family : List Interval) (position : Nat) : Prop :=
  ∃ piece ∈ family, piece.1 ≤ position ∧ position < piece.2

def Ascending : Nat → Nat → List Interval → Prop
  | low, high, [] => low ≤ high
  | low, high, piece :: rest =>
      low ≤ piece.1 ∧ piece.1 < piece.2 ∧ Ascending piece.2 high rest

@[simp] theorem covers_nil (position : Nat) : ¬Covers [] position := by
  simp [Covers]

variable {piece : Interval} {family : List Interval} {position : Nat}

@[simp] theorem covers_cons :
    Covers (piece :: family) position ↔
      (piece.1 ≤ position ∧ position < piece.2) ∨ Covers family position := by
  simp [Covers]

@[simp] theorem covers_append {left right : List Interval} :
    Covers (left ++ right) position ↔ Covers left position ∨ Covers right position := by
  simp [Covers, or_and_right, exists_or]

theorem Ascending.le {low high : Nat} (ascending : Ascending low high family) : low ≤ high := by
  induction family generalizing low with
  | nil => exact ascending
  | cons piece rest ih =>
    obtain ⟨lower, proper, later⟩ := ascending
    have upper := ih later
    omega

theorem Ascending.mono_low {low lower high : Nat}
    (ascending : Ascending low high family) (below : lower ≤ low) : Ascending lower high family := by
  cases family with
  | nil => exact Nat.le_trans below ascending
  | cons piece rest => exact ⟨Nat.le_trans below ascending.1, ascending.2⟩

theorem Ascending.mono_high {low high higher : Nat}
    (ascending : Ascending low high family) (above : high ≤ higher) : Ascending low higher family := by
  induction family generalizing low with
  | nil => exact Nat.le_trans ascending above
  | cons piece rest ih => exact ⟨ascending.1, ascending.2.1, ih ascending.2.2⟩

theorem Ascending.append {low middle high : Nat} {left right : List Interval}
    (first : Ascending low middle left) (second : Ascending middle high right) :
    Ascending low high (left ++ right) := by
  induction left generalizing low with
  | nil => exact second.mono_low first
  | cons piece rest ih => exact ⟨first.1, first.2.1, ih first.2.2⟩

theorem Ascending.bounds {low high : Nat} (ascending : Ascending low high family) (member : piece ∈ family) :
    low ≤ piece.1 ∧ piece.1 < piece.2 ∧ piece.2 ≤ high := by
  induction family generalizing low with
  | nil => simp at member
  | cons head rest ih =>
    obtain ⟨lower, proper, later⟩ := ascending
    rcases List.mem_cons.mp member with rfl | inRest
    · exact ⟨lower, proper, later.le⟩
    · obtain ⟨after, properPiece, top⟩ := ih later inRest
      exact ⟨by omega, properPiece, top⟩

/-- What a splitter owes below `top`: the pieces tile the interval it is given. -/
structure Splits (split : Nat → Nat → List Interval) (top : Nat) : Prop where
  ascending : ∀ low high, low ≤ high → high ≤ top → Ascending low high (split low high)
  covers : ∀ low high position, low ≤ position → position < high → high ≤ top →
    Covers (split low high) position

/-- What a walk at `cursor` finds free before an interval that starts at `taken`. -/
def freePart (split : Nat → Nat → List Interval) (stop cursor taken : Nat) : List Interval :=
  if cursor < taken then split cursor (min taken stop) else []

/-- The free parts of `[cursor, stop)`, given the occupied intervals that
overlap it in ascending order. The walk stops once the cursor passes `stop`. -/
def trim (split : Nat → Nat → List Interval) (stop : Nat) :
    Nat → List Interval → List Interval
  | cursor, [] => if cursor < stop then split cursor stop else []
  | cursor, taken :: rest =>
      if stop ≤ max cursor taken.2 then freePart split stop cursor taken.1
      else freePart split stop cursor taken.1 ++ trim split stop (max cursor taken.2) rest

section Trim

variable {split : Nat → Nat → List Interval} {stop : Nat}

variable {cursor : Nat} {occupied : List Interval}

theorem trim_pieces {Good : Interval → Prop} (good : ∀ low high, ∀ piece ∈ split low high, Good piece)
    (member : piece ∈ trim split stop cursor occupied) : Good piece := by
  have fromFree : ∀ cursor taken, piece ∈ freePart split stop cursor taken → Good piece := by
    intro cursor taken free
    unfold freePart at free
    split_ifs at free
    · exact good _ _ piece free
    · simp at free
  induction occupied generalizing cursor with
  | nil =>
    simp only [trim] at member
    split_ifs at member
    · exact good _ _ piece member
    · simp at member
  | cons taken rest ih =>
    simp only [trim] at member
    split_ifs at member
    · exact fromFree _ _ member
    · rcases List.mem_append.mp member with free | later
      · exact fromFree _ _ free
      · exact ih later

variable {top : Nat} (splits : Splits split top) (within : stop ≤ top)
include splits within

theorem free_part_ascending {cursor taken : Nat} (below : cursor ≤ stop) :
    Ascending cursor (max cursor (min taken stop)) (freePart split stop cursor taken) := by
  unfold freePart
  split_ifs with gap
  · have upper : max cursor (min taken stop) = min taken stop := by omega
    rw [upper]
    exact splits.ascending _ _ (by omega) (by omega)
  · exact Nat.le_max_left _ _

theorem free_part_before {cursor taken : Nat} (below : cursor ≤ stop)
    (member : piece ∈ freePart split stop cursor taken) : piece.2 ≤ taken := by
  unfold freePart at member
  split_ifs at member with gap
  · have bounds := (splits.ascending cursor (min taken stop) (by omega) (by omega)).bounds member
    omega
  · simp at member

theorem trim_ascending (below : cursor ≤ stop) (proper : ∀ taken ∈ occupied, taken.1 ≤ taken.2) :
    Ascending cursor stop (trim split stop cursor occupied) := by
  induction occupied generalizing cursor with
  | nil =>
    simp only [trim]
    split_ifs
    · exact splits.ascending _ _ below within
    · exact below
  | cons taken rest ih =>
    have own := proper taken (by simp)
    have free : Ascending cursor (max cursor (min taken.1 stop))
        (freePart split stop cursor taken.1) := free_part_ascending splits within below
    simp only [trim]
    split_ifs with done
    · exact free.mono_high (by omega)
    · have later : Ascending (max cursor taken.2) stop
          (trim split stop (max cursor taken.2) rest) :=
        ih (by omega) (fun other member => proper other (by simp [member]))
      exact (free.mono_high (by omega)).append later

/-- A trimmed piece lies wholly before or wholly after each occupied interval. -/
theorem trim_avoids (below : cursor ≤ stop) (proper : ∀ taken ∈ occupied, taken.1 ≤ taken.2)
    (apart : occupied.Pairwise fun left right => left.2 ≤ right.1) (member : piece ∈ trim split stop cursor occupied)
    {taken : Interval} (occupies : taken ∈ occupied) : piece.2 ≤ taken.1 ∨ taken.2 ≤ piece.1 := by
  induction occupied generalizing cursor with
  | nil => simp at occupies
  | cons head rest ih =>
    have own := proper head (by simp)
    have restProper : ∀ other ∈ rest, other.1 ≤ other.2 :=
      fun other inRest => proper other (by simp [inRest])
    obtain ⟨headApart, restApart⟩ := List.pairwise_cons.mp apart
    have fromFree : piece ∈ freePart split stop cursor head.1 →
        piece.2 ≤ taken.1 ∨ taken.2 ≤ piece.1 := by
      intro free
      have before := free_part_before splits within below free
      rcases List.mem_cons.mp occupies with rfl | inRest
      · exact Or.inl before
      · have after := headApart taken inRest
        exact Or.inl (by omega)
    simp only [trim] at member
    split_ifs at member with done
    · exact fromFree member
    · rcases List.mem_append.mp member with free | later
      · exact fromFree free
      · have rest : Ascending (max cursor head.2) stop
            (trim split stop (max cursor head.2) rest) :=
          trim_ascending splits within (by omega) restProper
        have start := (rest.bounds later).1
        rcases List.mem_cons.mp occupies with rfl | inRest
        · exact Or.inr (by omega)
        · exact ih (by omega) restProper restApart later inRest

/-- Free pieces and occupied intervals together leave no hole in the window. -/
theorem trim_covers (lower : cursor ≤ position) (upper : position < stop) :
    Covers (trim split stop cursor occupied) position ∨ Covers occupied position := by
  induction occupied generalizing cursor with
  | nil =>
    left
    rw [trim, if_pos (by omega)]
    exact splits.covers _ _ _ lower upper within
  | cons taken rest ih =>
    by_cases before : position < taken.1
    · left
      have free : Covers (freePart split stop cursor taken.1) position := by
        rw [freePart, if_pos (by omega)]
        exact splits.covers _ _ _ lower (by omega) (by omega)
      simp only [trim]
      split_ifs
      · exact free
      · exact covers_append.mpr (Or.inl free)
    · by_cases inside : position < taken.2
      · exact Or.inr (covers_cons.mpr (Or.inl ⟨by omega, inside⟩))
      · rw [trim, if_neg (by omega)]
        have lower' : max cursor taken.2 ≤ position := by omega
        rcases ih lower' with free | occupied
        · exact Or.inl (covers_append.mpr (Or.inr free))
        · exact Or.inr (covers_cons.mpr (Or.inr occupied))

end Trim

end Foundation.Intervals
