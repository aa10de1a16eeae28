import Mathlib.Data.Finset.Card
import Mathlib.Data.List.ProdSigma

/-!
# Counting classes

Elements told apart by a coarse key fall into as many classes as those told apart by
a fine one exactly when the coarse key tells apart all that the fine one does.
-/

namespace Foundation

variable {Elem Fine Coarse : Type} [DecidableEq Elem] [DecidableEq Fine] [DecidableEq Coarse]
  {fine : Elem → Fine} {coarse : Elem → Coarse}

omit [DecidableEq Elem] [DecidableEq Coarse] in
theorem exists_factor (elems : Finset Elem) (default : Coarse)
    (factors : ∀ left ∈ elems, ∀ right ∈ elems, fine left = fine right → coarse left = coarse right) :
    ∃ factor : Fine → Coarse, ∀ elem ∈ elems, factor (fine elem) = coarse elem := by
  classical
  refine ⟨fun key => if held : ∃ elem ∈ elems, fine elem = key then coarse held.choose else default, ?_⟩
  intro elem member
  have held : ∃ other ∈ elems, fine other = fine elem := ⟨elem, member, rfl⟩
  exact (dif_pos held).trans (factors _ held.choose_spec.1 elem member held.choose_spec.2)

omit [DecidableEq Elem] in
theorem card_image_eq_iff (elems : Finset Elem) (default : Coarse)
    (factors : ∀ left ∈ elems, ∀ right ∈ elems, fine left = fine right → coarse left = coarse right) :
    (elems.image coarse).card ≤ (elems.image fine).card ∧
      ((elems.image coarse).card = (elems.image fine).card ↔
        ∀ left ∈ elems, ∀ right ∈ elems, coarse left = coarse right → fine left = fine right) := by
  obtain ⟨factor, isFactor⟩ := exists_factor elems default factors
  have through : elems.image coarse = (elems.image fine).image factor := by
    rw [Finset.image_image]
    exact Finset.image_congr fun elem member => (isFactor elem member).symm
  refine ⟨through ▸ Finset.card_image_le, ?_⟩
  rw [through, Finset.card_image_iff]
  constructor
  · intro injective left isLeft right isRight same
    refine injective (Finset.mem_coe.mpr (Finset.mem_image_of_mem fine isLeft))
      (Finset.mem_coe.mpr (Finset.mem_image_of_mem fine isRight)) ?_
    rw [isFactor left isLeft, isFactor right isRight, same]
  · intro apart leftKey isLeft rightKey isRight same
    obtain ⟨left, leftMember, rfl⟩ := Finset.mem_image.mp (Finset.mem_coe.mp isLeft)
    obtain ⟨right, rightMember, rfl⟩ := Finset.mem_image.mp (Finset.mem_coe.mp isRight)
    rw [isFactor left leftMember, isFactor right rightMember] at same
    exact apart left leftMember right rightMember same

theorem dedup_length_congr (elems : List Elem)
    (same : ∀ left ∈ elems, ∀ right ∈ elems, fine left = fine right ↔ coarse left = coarse right) :
    (elems.map fine).dedup.length = (elems.map coarse).dedup.length := by
  cases elems with
  | nil => rfl
  | cons first rest =>
    have counted := (card_image_eq_iff (first :: rest).toFinset (coarse first)
      (fun left isLeft right isRight => (same left (List.mem_toFinset.mp isLeft) right
        (List.mem_toFinset.mp isRight)).mp)).2.mpr
      (fun left isLeft right isRight => (same left (List.mem_toFinset.mp isLeft) right
        (List.mem_toFinset.mp isRight)).mpr)
    have fineSet : ((first :: rest).map fine).toFinset = (first :: rest).toFinset.image fine := by
      ext key
      simp
    have coarseSet : ((first :: rest).map coarse).toFinset = (first :: rest).toFinset.image coarse := by
      ext key
      simp
    rw [← List.card_toFinset, ← List.card_toFinset, fineSet, coarseSet, counted]

/-- Values from a list make as many classes as the list is long exactly when the list repeats
nothing and all of it occurs. -/
theorem dedup_length_eq_iff {values wanted : List Elem} (covered : values ⊆ wanted) :
    values.dedup.length = wanted.length ↔ wanted.Nodup ∧ wanted ⊆ values := by
  have inside : values.dedup ⊆ wanted := fun value member => covered (List.mem_dedup.mp member)
  constructor
  · intro full
    have all : values.dedup.Perm wanted :=
      ((List.nodup_dedup values).subperm inside).perm_of_length_le full.ge
    exact ⟨all.nodup_iff.mp (List.nodup_dedup values),
      fun value member => List.mem_dedup.mp (all.mem_iff.mpr member)⟩
  · rintro ⟨once, occurs⟩
    have all : wanted.Subperm values.dedup :=
      once.subperm fun value member => List.mem_dedup.mpr (occurs member)
    exact Nat.le_antisymm ((List.nodup_dedup values).subperm inside).length_le all.length_le

omit [DecidableEq Elem] in
/-- The pairs of two lists that are not empty repeat nothing exactly when neither list does. -/
theorem product_nodup_iff {Other : Type} {lefts : List Elem} {rights : List Other}
    (someLeft : lefts ≠ []) (someRight : rights ≠ []) : (lefts ×ˢ rights).Nodup ↔ lefts.Nodup ∧ rights.Nodup := by
  constructor
  · intro once
    obtain ⟨left, isLeft⟩ := List.exists_mem_of_ne_nil lefts someLeft
    obtain ⟨right, isRight⟩ := List.exists_mem_of_ne_nil rights someRight
    have rows := List.nodup_flatMap.mp once
    refine ⟨rows.2.imp fun apart same => ?_, List.Nodup.of_map _ (rows.1 left isLeft)⟩
    exact apart (List.mem_map_of_mem isRight) (same ▸ List.mem_map_of_mem isRight)
  · exact fun both => both.1.product both.2

/-- Leaving out the elements of one coarse class, the counts agree exactly when there are none
and the classes are the same. -/
theorem distinct_length_eq_iff (elems : List Elem) (absent : Coarse)
    (factors : ∀ left ∈ elems, ∀ right ∈ elems, fine left = fine right → coarse left = coarse right) :
    ((elems.map coarse).filter (· ≠ absent)).dedup.length = (elems.map fine).dedup.length ↔
      (∀ elem ∈ elems, coarse elem ≠ absent) ∧
        ∀ left ∈ elems, ∀ right ∈ elems, coarse left = coarse right → fine left = fine right := by
  have toSet : ((elems.map coarse).filter (· ≠ absent)).dedup.length =
      ((elems.toFinset.image coarse).erase absent).card := by
    rw [← List.card_toFinset]
    congr 1
    ext key
    simp [and_comm]
  have fineSet : (elems.map fine).dedup.length = (elems.toFinset.image fine).card := by
    rw [← List.card_toFinset]
    congr 1
    ext key
    simp
  have factors_ : ∀ left ∈ elems.toFinset, ∀ right ∈ elems.toFinset, fine left = fine right →
      coarse left = coarse right := by
    simpa using factors
  obtain ⟨atMost, same⟩ := card_image_eq_iff elems.toFinset absent factors_
  simp only [List.mem_toFinset] at same
  rw [toSet, fineSet, ← same]
  by_cases held : absent ∈ elems.toFinset.image coarse
  · have fewer := Finset.card_erase_lt_of_mem held
    refine iff_of_false (by omega) fun none_ => ?_
    obtain ⟨elem, member, isAbsent⟩ := Finset.mem_image.mp held
    exact none_.1 elem (List.mem_toFinset.mp member) isAbsent
  · rw [Finset.erase_eq_of_notMem held]
    refine (and_iff_right fun elem member isAbsent => ?_).symm
    exact held (Finset.mem_image.mpr ⟨elem, List.mem_toFinset.mpr member, isAbsent⟩)

end Foundation
