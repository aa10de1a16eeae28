import Mathlib.Data.List.Basic

/-!
# Chunks of one size

A list is cut into chunks of one size and a rest that is shorter. What is cut from the
front of a list may be cut off before the rest of the list is there.
-/

namespace Foundation.Chunks

variable {Item : Type} {size : Nat}

def chunks (size : Nat) (items : List Item) : List (List Item) :=
  (List.range (items.length / size)).map fun index => (items.drop (index * size)).take size

def rest (size : Nat) (items : List Item) : List Item := items.drop (items.length / size * size)

theorem chunks_short {items : List Item} (short : items.length < size) : chunks size items = [] := by
  rw [chunks, Nat.div_eq_of_lt short]
  rfl

theorem rest_short {items : List Item} (short : items.length < size) : rest size items = items := by
  rw [rest, Nat.div_eq_of_lt short, Nat.zero_mul, List.drop_zero]

theorem rest_length (size : Nat) (items : List Item) : (rest size items).length = items.length % size := by
  have split := Nat.div_add_mod items.length size
  rw [rest, List.length_drop, Nat.mul_comm]
  omega

variable {first : List Item}

theorem chunks_count (positive : 0 < size) (whole : first.length = size) (items : List Item) :
    (first ++ items).length / size = items.length / size + 1 := by
  rw [List.length_append, whole, Nat.add_comm, Nat.add_div_right _ positive]

theorem chunks_append (positive : 0 < size) (whole : first.length = size) (items : List Item) :
    chunks size (first ++ items) = first :: chunks size items := by
  rw [chunks, chunks_count positive whole, List.range_succ_eq_map, List.map_cons, List.map_map, Nat.zero_mul,
    List.drop_zero, ← whole, List.take_left, chunks, whole]
  congr 1
  apply List.map_congr_left
  intro index _
  have shifted : (index + 1) * size = first.length + index * size := by
    rw [Nat.succ_mul, whole, Nat.add_comm]
  rw [Function.comp_apply, shifted, List.drop_append, List.drop_of_length_le (Nat.le_add_right _ _), List.nil_append,
    Nat.add_sub_cancel_left]

theorem rest_append (positive : 0 < size) (whole : first.length = size) (items : List Item) :
    rest size (first ++ items) = rest size items := by
  have shifted : (items.length / size + 1) * size = first.length + items.length / size * size := by
    rw [Nat.succ_mul, whole, Nat.add_comm]
  rw [rest, chunks_count positive whole, shifted, List.drop_append, List.drop_of_length_le (Nat.le_add_right _ _),
    List.nil_append, Nat.add_sub_cancel_left]
  rfl

theorem short_or_chunk (items : List Item) (size : Nat) :
    items.length < size ∨ ∃ first later, items = first ++ later ∧ first.length = size := by
  by_cases short : items.length < size
  · exact .inl short
  · apply Or.inr
    refine ⟨items.take size, items.drop size, (List.take_append_drop size items).symm, ?_⟩
    rw [List.length_take]
    omega

theorem chunks_induction (positive : 0 < size) {motive : List Item → Prop}
    (short : ∀ items : List Item, items.length < size → motive items)
    (chunk : ∀ first later : List Item, first.length = size → motive later → motive (first ++ later))
    (items : List Item) : motive items := by
  induction length : items.length using Nat.strongRecOn generalizing items with
  | ind count ih =>
    rcases short_or_chunk items size with isShort | ⟨first, later, rfl, whole⟩
    · exact short items isShort
    · apply chunk first later whole
      apply ih later.length _ later rfl
      rw [List.length_append] at length
      omega

/-- Cutting a list and then the rest with what follows is cutting the whole. -/
theorem cut_in_parts (positive : 0 < size) (items more : List Item) :
    chunks size (items ++ more) = chunks size items ++ chunks size (rest size items ++ more) ∧
      rest size (items ++ more) = rest size (rest size items ++ more) := by
  induction items using chunks_induction positive with
  | short items short =>
    rw [chunks_short short, rest_short short]
    exact ⟨rfl, rfl⟩
  | chunk first later whole ih =>
    rw [List.append_assoc, chunks_append positive whole, chunks_append positive whole, rest_append positive whole,
      rest_append positive whole, ih.1, ih.2]
    exact ⟨rfl, rfl⟩

end Foundation.Chunks
