import Mathlib.Data.List.TakeWhile
import Panoptikon.Foundation.ByteText

/-!
# Cutting texts

A text is cut at the last character boundary that a limit of bytes allows. It is split
in front of the last occurrence of a character, and trimmed at its end of some characters.
-/

namespace Foundation.Text

def isCharBoundary (text : Text) (index : Nat) : Bool := (sliceTo text index).isSome

/-- The last boundary that is not behind the index. -/
def floorBoundary (text : Text) : Nat → Nat
  | 0 => 0
  | index + 1 => if isCharBoundary text (index + 1) then index + 1 else floorBoundary text index

theorem floor_boundary_succ (text : Text) (index : Nat) : floorBoundary text (index + 1) =
    if isCharBoundary text (index + 1) then index + 1 else floorBoundary text index := rfl

/-- The text up to the last boundary within the limit. -/
def cutTo (text : Text) (limit : Nat) : Text := (sliceTo text (floorBoundary text limit)).getD []

theorem slice_to_eq_some {text front : Text} {index : Nat} :
    sliceTo text index = some front ↔ front <+: text ∧ byteLength front = index := by
  constructor
  · intro sliced
    induction text generalizing index front with
    | nil =>
      cases index with
      | zero =>
        cases sliced
        exact ⟨List.nil_prefix, rfl⟩
      | succ index => cases sliced
    | cons char rest ih =>
      cases index with
      | zero =>
        cases sliced
        exact ⟨List.nil_prefix, rfl⟩
      | succ index =>
        rw [sliceTo] at sliced
        split at sliced
        · obtain ⟨later, isLater, rfl⟩ := Option.map_eq_some_iff.mp sliced
          have shorter := ih isLater
          refine ⟨List.cons_prefix_cons.mpr ⟨rfl, shorter.1⟩, ?_⟩
          rw [byte_length_cons, shorter.2]
          omega
        · cases sliced
  · rintro ⟨⟨rest, rfl⟩, rfl⟩
    exact slice_to_append front rest

theorem floor_boundary_le (text : Text) (limit : Nat) : floorBoundary text limit ≤ limit := by
  induction limit with
  | zero => exact Nat.le_refl 0
  | succ index ih =>
    rw [floor_boundary_succ]
    split
    · exact Nat.le_refl _
    · exact Nat.le_succ_of_le ih

theorem floor_is_boundary (text : Text) (limit : Nat) : isCharBoundary text (floorBoundary text limit) = true := by
  induction limit with
  | zero => cases text <;> rfl
  | succ index ih =>
    rw [floor_boundary_succ]
    split
    · assumption
    · exact ih

theorem le_floor_boundary {text : Text} {index limit : Nat} (isBoundary : isCharBoundary text index = true)
    (within : index ≤ limit) : index ≤ floorBoundary text limit := by
  induction limit with
  | zero => exact within
  | succ last ih =>
    rw [floor_boundary_succ]
    split
    · exact within
    · rename_i noBoundary
      apply ih
      have differs : index ≠ last + 1 := by
        rintro rfl
        exact noBoundary isBoundary
      omega

variable (text : Text) (limit : Nat)

theorem cut_to_slice : sliceTo text (floorBoundary text limit) = some (cutTo text limit) := by
  obtain ⟨front, sliced⟩ := Option.isSome_iff_exists.mp (floor_is_boundary text limit)
  rw [cutTo, sliced, Option.getD_some]

theorem cut_to_opening : cutTo text limit <+: text := (slice_to_eq_some.mp (cut_to_slice text limit)).1

theorem cut_to_within : byteLength (cutTo text limit) ≤ limit := by
  rw [(slice_to_eq_some.mp (cut_to_slice text limit)).2]
  exact floor_boundary_le text limit

theorem cut_to_longest {front : Text} (isPrefix : front <+: text) (within : byteLength front ≤ limit) :
    byteLength front ≤ byteLength (cutTo text limit) := by
  rw [(slice_to_eq_some.mp (cut_to_slice text limit)).2]
  apply le_floor_boundary _ within
  rw [isCharBoundary, slice_to_eq_some.mpr ⟨isPrefix, rfl⟩]
  rfl

variable {text limit}

theorem eq_of_prefix_of_bytes {front : Text} (isPrefix : front <+: text)
    (whole : byteLength text ≤ byteLength front) : front = text := by
  obtain ⟨rest, rfl⟩ := isPrefix
  rw [byte_length_append] at whole
  cases rest with
  | nil => exact (List.append_nil front).symm
  | cons char later =>
    have positive := char.utf8Size_pos
    rw [byte_length_cons] at whole
    omega

theorem cut_to_all (fits : byteLength text ≤ limit) : cutTo text limit = text :=
  eq_of_prefix_of_bytes (cut_to_opening text limit) (cut_to_longest text limit (List.prefix_refl text) fits)

theorem cut_to_tight (exceeds : limit < byteLength text) : limit < byteLength (cutTo text limit) + 4 := by
  obtain ⟨rest, split⟩ := cut_to_opening text limit
  have within := cut_to_within text limit
  cases rest with
  | nil =>
    rw [List.append_nil] at split
    rw [split] at within
    omega
  | cons char later =>
    have small : char.utf8Size ≤ 4 := char.utf8Size_le_four
    have longer : cutTo text limit ++ [char] <+: text := by
      refine ⟨later, ?_⟩
      rw [List.append_assoc]
      exact split
    have size : byteLength (cutTo text limit ++ [char]) = byteLength (cutTo text limit) + char.utf8Size := by
      rw [byte_length_append, byte_length_cons, byte_length_nil, Nat.add_zero]
    by_cases short : byteLength (cutTo text limit ++ [char]) ≤ limit
    · have longest := cut_to_longest text limit longer short
      have positive := char.utf8Size_pos
      omega
    · omega

/-- What stands before the last occurrence, and the text from there on. -/
def splitLast (char : Char) (text : Text) : Option (Text × Text) :=
  if text.elem char then
    some ((text.reverse.dropWhile (· != char)).tail.reverse, char :: (text.reverse.takeWhile (· != char)).reverse)
  else none

theorem split_last_eq_some {char : Char} {front back : Text} (isSplit : splitLast char text = some (front, back)) :
    text = front ++ back ∧ ∃ rest, back = char :: rest ∧ char ∉ rest := by
  unfold splitLast at isSplit
  split at isSplit
  · rename_i present
    cases isSplit
    have whole := List.takeWhile_append_dropWhile (p := (· != char)) (l := text.reverse)
    have absent : char ∉ text.reverse.takeWhile (· != char) := by
      intro member
      have differs := List.mem_takeWhile_imp member
      rw [bne_self_eq_false] at differs
      cases differs
    have stops : ∃ before, text.reverse.dropWhile (· != char) = char :: before := by
      cases dropped : text.reverse.dropWhile (· != char) with
      | nil =>
        rw [dropped, List.append_nil] at whole
        rw [whole, List.mem_reverse] at absent
        exact absurd (List.elem_iff.mp present) absent
      | cons first before =>
        have isFirst := List.head?_dropWhile_not (· != char) text.reverse
        rw [dropped] at isFirst
        have same : first = char := by simpa using isFirst
        exact ⟨before, by rw [same]⟩
    obtain ⟨before, stops⟩ := stops
    rw [stops] at whole ⊢
    refine ⟨?_, _, rfl, ?_⟩
    · apply List.reverse_injective
      rw [List.tail_cons, List.reverse_append, List.reverse_cons, List.reverse_reverse, List.reverse_reverse,
        List.append_assoc, List.singleton_append]
      exact whole.symm
    · rw [List.mem_reverse]
      exact absent
  · cases isSplit

theorem split_last_append {char : Char} {rest : Text} (absent : char ∉ rest) (front : Text) :
    splitLast char (front ++ char :: rest) = some (front, char :: rest) := by
  have passed : ∀ other ∈ rest.reverse, (other != char) = true := by
    intro other isIn
    rw [bne_iff_ne]
    rintro rfl
    exact absent (List.mem_reverse.mp isIn)
  have reversed : (front ++ char :: rest).reverse = rest.reverse ++ char :: front.reverse := by
    rw [List.reverse_append, List.reverse_cons, List.append_assoc, List.singleton_append]
  rw [splitLast, if_pos (List.elem_iff.mpr (List.mem_append_right front List.mem_cons_self)), reversed,
    List.dropWhile_append_of_pos passed, List.takeWhile_append_of_pos passed, List.dropWhile_cons,
    List.takeWhile_cons]
  simp only [bne_self_eq_false, Bool.false_eq_true, ↓reduceIte, List.tail_cons, List.append_nil,
    List.reverse_reverse]

/-- `str::rsplit_once` -/
def rsplitOnce (char : Char) (text : Text) : Option (Text × Text) :=
  (splitLast char text).map fun halves => (halves.1, halves.2.drop 1)

theorem rsplit_once_iff {char : Char} {text front rest : Text} :
    rsplitOnce char text = some (front, rest) ↔ text = front ++ char :: rest ∧ char ∉ rest := by
  rw [rsplitOnce]
  constructor
  · intro isSplit
    obtain ⟨halves, found, same⟩ := Option.map_eq_some_iff.mp isSplit
    obtain ⟨whole, behind, isBack, absent⟩ := split_last_eq_some found
    rw [isBack, List.drop_one, List.tail_cons, Prod.mk.injEq] at same
    rw [whole, isBack, ← same.1, ← same.2]
    exact ⟨rfl, absent⟩
  · rintro ⟨rfl, absent⟩
    rw [split_last_append absent]
    rfl

def trimEndChars (chars : List Char) (text : Text) : Text := (text.reverse.dropWhile chars.elem).reverse

theorem trim_end_chars_prefix (chars : List Char) (text : Text) : trimEndChars chars text <+: text := by
  rw [← List.reverse_suffix, trimEndChars, List.reverse_reverse]
  exact List.dropWhile_suffix _

theorem trim_end_chars_last {chars : List Char} {last : Char}
    (isLast : last ∈ (trimEndChars chars text).getLast?) : last ∉ chars := by
  have stops := List.head?_dropWhile_not chars.elem text.reverse
  rw [trimEndChars, List.getLast?_reverse] at isLast
  rw [Option.mem_def.mp isLast] at stops
  have absent : chars.elem last = false := stops
  intro member
  rw [List.elem_iff.mpr member] at absent
  cases absent

theorem trim_end_chars_self {chars : List Char} (kept : ∀ last ∈ text.getLast?, last ∉ chars) :
    trimEndChars chars text = text := by
  rw [← List.head?_reverse] at kept
  rw [trimEndChars]
  cases reversed : text.reverse with
  | nil => rw [List.dropWhile_nil, ← reversed, List.reverse_reverse]
  | cons last before =>
    rw [reversed] at kept
    have stays : ¬List.elem last chars = true := by
      rw [List.elem_iff]
      exact kept last rfl
    rw [List.dropWhile_cons, if_neg stays, ← reversed, List.reverse_reverse]

end Foundation.Text
