import Mathlib.Data.String.Basic
import Mathlib.Data.List.TakeWhile

/-!
# Names that carry a number

A name is read as what stands before its first digit and the number that begins
there. Names built from a number that two owners never share, or from different
words before it, are different.
-/

namespace Foundation

/-- What stands before the first digit. -/
def headOf (name : String) : List Char := name.toList.takeWhile fun char => !char.isDigit

/-- The digits of the first number. -/
def digitsOf (name : String) : List Char :=
  (name.toList.dropWhile fun char => !char.isDigit).takeWhile Char.isDigit

/-- The first number in a name. -/
def numberOf (name : String) : Option Nat :=
  if digitsOf name = [] then none else some (Nat.ofDigitChars 10 (digitsOf name) 0)

/-- No digit occurs. -/
def DigitFree (word : String) : Prop := ∀ char ∈ word.toList, char.isDigit = false

instance (word : String) : Decidable (DigitFree word) :=
  show Decidable (∀ char ∈ word.toList, char.isDigit = false) from List.decidableBAll _ _

section Numbered

variable {before after : String} {number : Nat}

theorem digits_of_nat (number : Nat) :
    (toString number).toList ≠ [] ∧ ∀ char ∈ (toString number).toList, char.isDigit = true := by
  rw [Nat.toString_eq_repr, Nat.toList_repr]
  constructor
  · intro empty
    have positive := @Nat.length_repr_pos number
    rw [← String.length_toList, Nat.toList_repr, empty] at positive
    exact absurd positive (by decide)
  · intro char member
    exact Nat.isDigit_of_mem_toDigits (by decide) (by decide) member

theorem toList_split (before after : String) (number : Nat) : (before ++ toString number ++ after).toList =
      before.toList ++ ((toString number).toList ++ after.toList) := by
  simp

theorem head_of_numbered (wordless : DigitFree before) :
    headOf (before ++ toString number ++ after) = before.toList := by
  obtain ⟨nonempty, digits⟩ := digits_of_nat number
  rw [headOf, toList_split, List.takeWhile_append_of_pos (by simpa [DigitFree] using wordless)]
  match chars : (toString number).toList with
  | [] => exact absurd chars nonempty
  | first :: rest =>
    have digit := digits first (chars ▸ List.mem_cons_self)
    simp [digit]

theorem number_of_numbered (wordless : DigitFree before)
    (ended : ∀ char ∈ after.toList.head?, char.isDigit = false) :
    numberOf (before ++ toString number ++ after) = some number := by
  obtain ⟨nonempty, digits⟩ := digits_of_nat number
  have found : digitsOf (before ++ toString number ++ after) = (toString number).toList := by
    rw [digitsOf, toList_split, List.dropWhile_append_of_pos (by simpa [DigitFree] using wordless)]
    have kept : (((toString number).toList ++ after.toList).dropWhile fun char => !char.isDigit) =
        (toString number).toList ++ after.toList := by
      match chars : (toString number).toList with
      | [] => exact absurd chars nonempty
      | first :: rest =>
        have digit := digits first (chars ▸ List.mem_cons_self)
        simp [digit]
    rw [kept, List.takeWhile_append_of_pos digits]
    match rest : after.toList with
    | [] => simp
    | first :: _ => simp [ended first (by simp [rest])]
  rw [numberOf, found, if_neg nonempty, Nat.toString_eq_repr, Nat.toList_repr,
    Nat.ofDigitChars_toDigits (by decide) (by decide)]

theorem number_of_digit_free {word : String} (wordless : DigitFree word) : numberOf word = none := by
  have skipped : (word.toList.dropWhile fun char => !char.isDigit) = [] :=
    List.dropWhile_eq_nil_iff.mpr (by simpa [DigitFree] using wordless)
  simp [numberOf, digitsOf, skipped]

end Numbered

theorem int_text_parts (number : Int) : ∃ (sign : String) (magnitude : Nat), DigitFree sign ∧
    toString number = sign ++ toString magnitude ∧
    ((sign = "" ∧ number = magnitude) ∨ (sign = "-" ∧ number = -magnitude)) := by
  rw [Int.toString_eq_repr, Int.repr_eq_if]
  by_cases positive : 0 ≤ number
  · rw [if_pos positive]
    refine ⟨"", number.toNat, by decide, ?_, .inl ⟨rfl, by omega⟩⟩
    rw [String.empty_append]
    rfl
  · rw [if_neg positive]
    exact ⟨"-", (-number).toNat, by decide, rfl, .inr ⟨rfl, by omega⟩⟩

/-- What begins with a number and a mark tells the number and what follows. -/
theorem marked_injective {left right : Int} {leftRest rightRest : String}
    (same : toString left ++ "-" ++ leftRest = toString right ++ "-" ++ rightRest) :
    left = right ∧ leftRest = rightRest := by
  obtain ⟨leftSign, leftMagnitude, leftFree, leftText, isLeft⟩ := int_text_parts left
  obtain ⟨rightSign, rightMagnitude, rightFree, rightText, isRight⟩ := int_text_parts right
  have marked (rest : String) : ∀ char ∈ ("-" ++ rest).toList.head?, char.isDigit = false := by
    intro char member
    rw [String.toList_append] at member
    cases Option.some.inj member
    rfl
  have texts : leftSign ++ toString leftMagnitude ++ ("-" ++ leftRest) =
      rightSign ++ toString rightMagnitude ++ ("-" ++ rightRest) := by
    rw [← String.append_assoc, ← String.append_assoc, ← leftText, ← rightText]
    exact same
  have heads := congrArg headOf texts
  have numbers := congrArg numberOf texts
  rw [head_of_numbered leftFree, head_of_numbered rightFree, String.toList_inj] at heads
  rw [number_of_numbered leftFree (marked _), number_of_numbered rightFree (marked _), Option.some.injEq] at numbers
  have equal : left = right := by
    rcases isLeft with ⟨noSign, isNumber⟩ | ⟨minus, isNumber⟩
    · rcases isRight with ⟨_, isOther⟩ | ⟨minus, _⟩
      · rw [isNumber, isOther, numbers]
      · rw [noSign, minus] at heads
        exact absurd heads (by decide)
    · rcases isRight with ⟨noSign, _⟩ | ⟨_, isOther⟩
      · rw [noSign, minus] at heads
        exact absurd heads (by decide)
      · rw [isNumber, isOther, numbers]
  subst equal
  refine ⟨rfl, ?_⟩
  have lists := congrArg String.toList same
  rw [String.toList_append, @String.toList_append _ rightRest] at lists
  exact String.toList_inj.mp (List.append_cancel_left lists)

end Foundation
