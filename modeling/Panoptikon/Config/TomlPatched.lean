import Panoptikon.Config.TomlEffect

/-!
# When a TOML patch has the effect asked for

A patch goes down where the file spells a value as the typed value has it, and
puts the new value whole where it does not. It has the effect that is asked for
exactly when what it puts whole agrees with the delta, and when no array of the
file has elements that the old value does not know.
-/

namespace Panoptikon.Config

open Foundation

variable {Scalar : Type} [BEq Scalar]

variable {before after : List (Toml Scalar)}

variable {position : Nat}

variable {item : Item Scalar}

variable {before after : Toml Scalar}

omit [BEq Scalar] in
theorem Toml.Distinct.induction {motive : Toml Scalar → Prop}
    (node : ∀ value : Toml Scalar, value.Distinct →
      (∀ step inner, value.child step = some inner → motive inner) → motive value)
    {value : Toml Scalar} (distinct : value.Distinct) : motive value := by
  induction distinct with
  | scalar value => exact node _ (.scalar value) fun step inner isInner => by cases isInner
  | array values inner ih =>
    apply node _ (.array values inner)
    intro step value isChild
    cases step with
    | key => cases isChild
    | index position => exact ih value (List.mem_of_getElem? isChild)
  | table entries keys inner ih =>
    apply node _ (.table entries keys inner)
    intro step value isChild
    cases step with
    | index => cases isChild
    | key name => exact ih (name, value) (Entries.mem_of_get isChild)

end Panoptikon.Config
