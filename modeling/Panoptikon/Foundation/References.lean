import Mathlib.Data.List.Nodup

/-!
# Shared references

Holders share elements, and an element nobody holds any more has to be given
up. A step that only drops references reports the elements whose last reference
it dropped; such steps compose, so a loop of them reports each element once.
-/

namespace Foundation

variable {Holder Elem : Type*}

def Referenced (held : Holder → Elem → Prop) (elem : Elem) : Prop := ∃ holder, held holder elem

/-- References are dropped, and the elements left without one are reported. -/
structure Releases (before after : Holder → Elem → Prop) (reported : List Elem) : Prop where
  fewer : ∀ holder elem, after holder elem → before holder elem
  once : reported.Nodup
  last : ∀ elem, elem ∈ reported ↔ Referenced before elem ∧ ¬Referenced after elem

namespace Releases

variable {before between after : Holder → Elem → Prop} {reported later : List Elem}

theorem refl (held : Holder → Elem → Prop) : Releases held held [] where
  fewer := fun _ _ holds => holds
  once := List.nodup_nil
  last := by simp

theorem referenced (releases : Releases before after reported) {elem : Elem}
    (referenced : Referenced after elem) : Referenced before elem := by
  obtain ⟨holder, holds⟩ := referenced
  exact ⟨holder, releases.fewer holder elem holds⟩

theorem trans (first : Releases before between reported) (second : Releases between after later) :
    Releases before after (reported ++ later) where
  fewer := fun holder elem holds => first.fewer _ _ (second.fewer holder elem holds)
  once := by
    refine List.nodup_append.mpr ⟨first.once, second.once, ?_⟩
    rintro elem early _ late rfl
    exact ((first.last elem).mp early).2 ((second.last elem).mp late).1
  last := by
    intro elem
    rw [List.mem_append, first.last, second.last]
    constructor
    · rintro (⟨held, gone⟩ | ⟨held, gone⟩)
      · exact ⟨held, fun still => gone (second.referenced still)⟩
      · exact ⟨first.referenced held, gone⟩
    · rintro ⟨held, gone⟩
      by_cases still : Referenced between elem
      · exact Or.inr ⟨still, gone⟩
      · exact Or.inl ⟨held, still⟩

end Releases

end Foundation
