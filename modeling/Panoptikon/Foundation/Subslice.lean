import Mathlib.Data.List.Infix

/-!
# Searching for a subslice

The first place a needle stands in a list, and the pieces a list falls into at a
marker. No piece holds the marker, and pieces that end in what the marker does not
hold are the ones that were put together.
-/

namespace Foundation

variable {Elem : Type} [DecidableEq Elem]

def findSubslice (needle : List Elem) : List Elem → Option Nat
  | [] => if needle.isEmpty then some 0 else none
  | first :: rest =>
      if needle.isPrefixOf (first :: rest) then some 0
      else (findSubslice needle rest).map (· + 1)

variable {needle haystack : List Elem}

variable {position : Nat}

theorem find_subslice_some (found : findSubslice needle haystack = some position) :
    ∃ after, haystack = haystack.take position ++ (needle ++ after) ∧ position ≤ haystack.length := by
  induction haystack generalizing position with
  | nil =>
    unfold findSubslice at found
    split at found
    · rename_i empty
      cases found
      exact ⟨[], by simpa using empty, Nat.le_refl 0⟩
    · cases found
  | cons first rest ih =>
    unfold findSubslice at found
    split at found
    · rename_i starts
      cases found
      obtain ⟨after, same⟩ := List.isPrefixOf_iff_prefix.mp starts
      exact ⟨after, same.symm, Nat.zero_le _⟩
    · obtain ⟨later, isLater, rfl⟩ := Option.map_eq_some_iff.mp found
      obtain ⟨after, same, inside⟩ := ih isLater
      exact ⟨after, congrArg (first :: ·) same, Nat.succ_le_succ inside⟩

theorem find_subslice_none (missing : findSubslice needle haystack = none) : ¬needle <:+: haystack := by
  induction haystack with
  | nil =>
    unfold findSubslice at missing
    split at missing
    · cases missing
    · rename_i nonempty
      rw [List.infix_nil]
      simpa using nonempty
  | cons first rest ih =>
    unfold findSubslice at missing
    split at missing
    · cases missing
    · rename_i differs
      rw [List.infix_cons_iff, not_or]
      exact ⟨fun starts => differs (List.isPrefixOf_iff_prefix.mpr starts),
        ih (Option.map_eq_none_iff.mp missing)⟩

theorem find_subslice_skip {needle rest : List Elem} {first : Elem} (differs : ¬needle <+: first :: rest) :
    findSubslice needle (first :: rest) = (findSubslice needle rest).map (· + 1) := by
  rw [findSubslice, if_neg fun starts => differs (List.isPrefixOf_iff_prefix.mp starts)]

theorem find_subslice_past {head : Elem} {needle before : List Elem} (rest : List Elem)
    (absent : head ∉ before) : findSubslice (head :: needle) (before ++ rest) =
      (findSubslice (head :: needle) rest).map (· + before.length) := by
  induction before with
  | nil => simp
  | cons first before ih =>
    obtain ⟨differs, absent⟩ := not_or.mp fun member => absent (List.mem_cons.mpr member)
    rw [List.cons_append, find_subslice_skip fun starts => differs (List.cons_prefix_cons.mp starts).1,
      ih absent, Option.map_map, List.length_cons]
    exact congrArg (Option.map · _) (funext fun position => Nat.add_assoc _ _ _)

theorem find_subslice_here {needle : List Elem} (after : List Elem) :
    findSubslice needle (needle ++ after) = some 0 := by
  cases joined : needle ++ after with
  | nil =>
    rw [(List.append_eq_nil_iff.mp joined).1]
    rfl
  | cons first rest =>
    rw [findSubslice, if_pos]
    exact List.isPrefixOf_iff_prefix.mpr ⟨after, joined⟩

theorem find_subslice_before (nonempty : needle ≠ [])
    (found : findSubslice needle haystack = some position) : ¬needle <:+: haystack.take position := by
  induction haystack generalizing position with
  | nil => simpa using nonempty
  | cons first rest ih =>
    unfold findSubslice at found
    split at found
    · cases found
      simpa using nonempty
    · rename_i differs
      obtain ⟨later, isLater, rfl⟩ := Option.map_eq_some_iff.mp found
      rw [List.take_succ_cons, List.infix_cons_iff, not_or]
      refine ⟨fun starts => differs (List.isPrefixOf_iff_prefix.mpr ?_), ih isLater⟩
      exact starts.trans (List.prefix_iff_eq_take.mpr (by simp))

omit [DecidableEq Elem] in
theorem prefix_before_separator {needle first last : List Elem} {separator : Elem}
    (absent : separator ∉ needle) (starts : needle <+: first ++ separator :: last) : needle <+: first := by
  by_cases short : needle.length ≤ first.length
  · exact List.prefix_of_prefix_length_le starts (List.prefix_append _ _) short
  · have place := starts.getElem (Nat.lt_of_not_le short)
    have isSeparator : needle[first.length] = separator := place.trans (by simp)
    exact absurd (isSeparator ▸ List.getElem_mem _) absent

omit [DecidableEq Elem] in
theorem infix_separated_iff {needle first last : List Elem} {separator : Elem} (absent : separator ∉ needle) :
    needle <:+: first ++ separator :: last ↔ needle <:+: first ∨ needle <:+: last := by
  constructor
  · induction first with
    | nil =>
      intro held
      rcases List.infix_cons_iff.mp held with starts | later
      · exact Or.inl (@prefix_before_separator Elem needle [] _ _ absent starts).isInfix
      · exact Or.inr later
    | cons head rest ih =>
      intro held
      rcases List.infix_cons_iff.mp held with starts | later
      · exact Or.inl (@prefix_before_separator Elem needle (head :: rest) _ _ absent starts).isInfix
      · exact (ih later).imp_left fun inside => inside.trans (List.suffix_cons head rest).isInfix
  · rintro (inside | inside)
    · exact inside.trans (List.prefix_append _ _).isInfix
    · exact inside.trans ((List.suffix_cons separator last).trans (List.suffix_append _ _)).isInfix

theorem find_subslice_after {needle before : List Elem} {separator : Elem} (after : List Elem)
    (absent : separator ∉ needle) (free : ¬needle <:+: before) :
    findSubslice needle (before ++ separator :: (needle ++ after)) = some (before.length + 1) := by
  induction before with
  | nil =>
    have differs : ¬needle <+: separator :: (needle ++ after) := fun starts =>
      free (@prefix_before_separator Elem needle [] _ _ absent starts).isInfix
    rw [List.nil_append, find_subslice_skip differs, find_subslice_here]
    rfl
  | cons first before ih =>
    rw [List.infix_cons_iff, not_or] at free
    have differs : ¬needle <+: first :: (before ++ separator :: (needle ++ after)) := fun starts =>
      free.1 (@prefix_before_separator Elem needle (first :: before) _ _ absent starts)
    rw [List.cons_append, find_subslice_skip differs, ih free.2]
    rfl

/-- The pieces between the markers, as many as the fuel allows. -/
def splitWithin (marker : List Elem) : Nat → List Elem → List (List Elem)
  | 0, body => [body]
  | fuel + 1, body =>
      match findSubslice marker body with
      | none => [body]
      | some position =>
          body.take position :: splitWithin marker fuel (body.drop (position + marker.length))

/-- A body has no more markers than elements. -/
def splitByMarker (marker body : List Elem) : List (List Elem) :=
  if marker.isEmpty then [body] else splitWithin marker body.length body

section

variable {marker : List Elem} (nonempty : marker ≠ [])

variable {body : List Elem}

include nonempty in
theorem split_within_free {fuel : Nat} (enough : body.length ≤ fuel) :
    ∀ piece ∈ splitWithin marker fuel body, ¬marker <:+: piece := by
  induction fuel generalizing body with
  | zero =>
    obtain rfl := List.eq_nil_of_length_eq_zero (Nat.le_zero.mp enough)
    intro piece member
    rw [List.mem_singleton.mp member]
    simpa using nonempty
  | succ fuel ih =>
    intro piece member
    cases found : findSubslice marker body with
    | none =>
      simp only [splitWithin, found, List.mem_singleton] at member
      rw [member]
      exact find_subslice_none found
    | some position =>
      simp only [splitWithin, found, List.mem_cons] at member
      rcases member with rfl | later
      · exact find_subslice_before nonempty found
      · refine ih ?_ piece later
        have positive := List.length_pos_iff.mpr nonempty
        rw [List.length_drop]
        omega

theorem split_by_marker_free (nonempty : marker ≠ []) (body : List Elem) :
    ∀ piece ∈ splitByMarker marker body, ¬marker <:+: piece := by
  unfold splitByMarker
  rw [if_neg (by simpa using nonempty)]
  exact split_within_free nonempty (Nat.le_refl _)

include nonempty in
theorem split_within_enough {fuel : Nat} (enough : body.length ≤ fuel) :
    splitWithin marker fuel body = splitByMarker marker body := by
  have same : ∀ count other : Nat, ∀ body : List Elem, body.length ≤ count → body.length ≤ other →
      splitWithin marker count body = splitWithin marker other body := by
    intro count
    have empty : findSubslice marker [] = none := by
      simp [findSubslice, nonempty]
    induction count with
    | zero =>
      intro other body small _
      obtain rfl := List.eq_nil_of_length_eq_zero (Nat.le_zero.mp small)
      cases other with
      | zero => rfl
      | succ other => simp only [splitWithin, empty]
    | succ count ih =>
      intro other body small fits
      cases other with
      | zero =>
        obtain rfl := List.eq_nil_of_length_eq_zero (Nat.le_zero.mp fits)
        simp only [splitWithin, empty]
      | succ other =>
        cases found : findSubslice marker body with
        | none => simp only [splitWithin, found]
        | some position =>
          simp only [splitWithin, found]
          have positive := List.length_pos_iff.mpr nonempty
          rw [ih other] <;> rw [List.length_drop] <;> omega
  unfold splitByMarker
  rw [if_neg (by simpa using nonempty)]
  exact same fuel body.length body enough (Nat.le_refl _)

include nonempty in
theorem split_by_marker_found (found : findSubslice marker body = some position) : splitByMarker marker body =
      body.take position :: splitByMarker marker (body.drop (position + marker.length)) := by
  have positive := List.length_pos_iff.mpr nonempty
  rw [← split_within_enough nonempty (Nat.le_succ body.length), splitWithin, found]
  refine congrArg (body.take position :: ·) (split_within_enough nonempty ?_)
  rw [List.length_drop]
  omega

include nonempty in
theorem split_by_marker_last (free : ¬marker <:+: body) : splitByMarker marker body = [body] := by
  cases found : findSubslice marker body with
  | none =>
    rw [← split_within_enough nonempty (Nat.le_succ body.length), splitWithin, found]
  | some position =>
    obtain ⟨after, same, _⟩ := find_subslice_some found
    exact absurd ⟨body.take position, after, by rw [List.append_assoc]; exact same.symm⟩ free

include nonempty in
/-- A piece that holds no marker and ends in what no marker holds is split off whole. -/
theorem split_by_marker_piece {piece : List Elem} {separator : Elem} (rest : List Elem)
    (absent : separator ∉ marker) (free : ¬marker <:+: piece) :
    splitByMarker marker (piece ++ separator :: (marker ++ rest)) =
      (piece ++ [separator]) :: splitByMarker marker rest := by
  rw [split_by_marker_found nonempty (find_subslice_after rest absent free)]
  have joined : piece ++ separator :: (marker ++ rest) = (piece ++ [separator]) ++ (marker ++ rest) := by
    simp
  have length : piece.length + 1 = (piece ++ [separator]).length := by simp
  rw [joined, length, List.take_left]
  congr 2
  rw [← List.drop_drop, List.drop_left, List.drop_left]

end

end Foundation
