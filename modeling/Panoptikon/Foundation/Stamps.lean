import Mathlib

/-!
# Values with a stamp

A value that is stamped whenever it changes, with a time no older than a window.
A stamp that lies further back than the window tells that the value has not
changed since.
-/

namespace Foundation

variable {Value : Type}

/-- A step leaves the value and its stamp, or stamps it as of lately. -/
structure Stamped (window : Int) (clock : Nat → Int) (value : Nat → Value) (stamp : Nat → Int) : Prop where
  step : ∀ moment, (value (moment + 1) = value moment ∧ stamp (moment + 1) = stamp moment) ∨
    clock moment ≤ stamp (moment + 1) + window

namespace Stamped

variable {window : Int} {clock : Nat → Int} {value : Nat → Value} {stamp : Nat → Int}

theorem kept_or_recent (stamped : Stamped window clock value stamp) (monotone : Monotone clock)
    {first last : Nat} (ordered : first ≤ last) :
    (value last = value first ∧ stamp last = stamp first) ∨ clock first ≤ stamp last + window := by
  induction last, ordered using Nat.le_induction with
  | base => exact .inl ⟨rfl, rfl⟩
  | succ last ordered ih =>
    have later := monotone ordered
    rcases stamped.step last with ⟨sameValue, sameStamp⟩ | recent
    · rw [sameValue, sameStamp]
      exact ih
    · exact .inr (le_trans later recent)

theorem same_of_settled (stamped : Stamped window clock value stamp) (monotone : Monotone clock)
    {first last : Nat} (ordered : first ≤ last) (settled : stamp last + window < clock first) :
    value last = value first := by
  rcases stamped.kept_or_recent monotone ordered with ⟨same, _⟩ | recent
  · exact same
  · exact absurd settled (not_lt.mpr recent)

end Stamped

end Foundation
