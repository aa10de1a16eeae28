import Mathlib.Algebra.BigOperators.Group.List.Basic
import Mathlib.Algebra.GroupWithZero.Nat

/-!
# Text at byte offsets

A text is its characters; offsets into it count the bytes of their UTF-8
encoding. A slice exists when its offsets are in order, inside the text and
between two characters. The offset a search returns is one of those.
-/

namespace Foundation

abbrev Text := List Char

namespace Text

def byteLength (text : Text) : Nat := (text.map Char.utf8Size).sum

@[simp] theorem byte_length_nil : byteLength [] = 0 := rfl

@[simp] theorem byte_length_cons (char : Char) (rest : Text) :
    byteLength (char :: rest) = char.utf8Size + byteLength rest := by
  simp [byteLength]

@[simp] theorem byte_length_append (first second : Text) :
    byteLength (first ++ second) = byteLength first + byteLength second := by
  simp [byteLength]

/-- The offset of the first occurrence. -/
def find (pattern : Text) : Text → Option Nat
  | [] => if pattern.isPrefixOf [] then some 0 else none
  | char :: rest =>
      if pattern.isPrefixOf (char :: rest) then some 0
      else (find pattern rest).map (char.utf8Size + ·)

def sliceFrom : Text → Nat → Option Text
  | text, 0 => some text
  | [], _ + 1 => none
  | char :: rest, offset + 1 =>
      if char.utf8Size ≤ offset + 1 then sliceFrom rest (offset + 1 - char.utf8Size) else none

def sliceTo : Text → Nat → Option Text
  | _, 0 => some []
  | [], _ + 1 => none
  | char :: rest, offset + 1 =>
      if char.utf8Size ≤ offset + 1 then
        (sliceTo rest (offset + 1 - char.utf8Size)).map (char :: ·)
      else none

def slice (text : Text) (first last : Nat) : Option Text :=
  if first ≤ last then (sliceFrom text first).bind fun rest => sliceTo rest (last - first)
  else none

/-- Unicode White_Space, what `str::trim` removes. -/
def isWhitespace (char : Char) : Bool :=
  let code := char.toNat
  (9 ≤ code && code ≤ 13) || code = 0x20 || code = 0x85 || code = 0xA0 || code = 0x1680 ||
    (0x2000 ≤ code && code ≤ 0x200A) || code = 0x2028 || code = 0x2029 || code = 0x202F ||
    code = 0x205F || code = 0x3000

def trimStart (text : Text) : Text := text.dropWhile isWhitespace

def trim (text : Text) : Text := (trimStart (trimStart text).reverse).reverse

variable {pattern text : Text} {offset : Nat}

theorem find_splits (found : find pattern text = some offset) :
    ∃ before after, text = before ++ pattern ++ after ∧ byteLength before = offset := by
  induction text generalizing offset with
  | nil =>
    unfold find at found
    split at found
    · rename_i starts
      cases found
      exact ⟨[], [], by simpa using starts, rfl⟩
    · cases found
  | cons char rest ih =>
    unfold find at found
    split at found
    · rename_i starts
      cases found
      obtain ⟨after, same⟩ := List.isPrefixOf_iff_prefix.mp starts
      exact ⟨[], after, by simpa using same.symm, rfl⟩
    · obtain ⟨later, isLater, rfl⟩ := Option.map_eq_some_iff.mp found
      obtain ⟨before, after, same, length⟩ := ih isLater
      exact ⟨char :: before, after, by simp [same], by simp [length]⟩

theorem find_absent (absent : ¬pattern <:+: text) : find pattern text = none := by
  cases found : find pattern text with
  | none => rfl
  | some offset =>
    obtain ⟨before, after, rfl, -⟩ := find_splits found
    exact absurd ⟨before, after, rfl⟩ absent

theorem find_first {pattern before after : Text}
    (first : ∀ char rest, char :: rest <:+ before → ¬pattern <+: char :: rest ++ (pattern ++ after)) :
    find pattern (before ++ (pattern ++ after)) = some (byteLength before) := by
  induction before with
  | nil =>
    cases pattern with
    | nil => cases after <;> rfl
    | cons char rest => simp [find]
  | cons char rest ih =>
    have later := ih fun other others isSuffix =>
      first other others (isSuffix.trans (List.suffix_cons char rest))
    have differs := first char rest (List.suffix_refl _)
    rw [List.cons_append, find, if_neg (by simpa [List.isPrefixOf_iff_prefix] using differs), later]
    rfl

theorem find_char {char : Char} {before after : Text} (absent : char ∉ before) :
    find [char] (before ++ char :: after) = some (byteLength before) := by
  change find [char] (before ++ ([char] ++ after)) = _
  refine find_first fun other rest isSuffix starts => ?_
  obtain ⟨_, same⟩ := starts
  cases same
  exact absent (isSuffix.subset List.mem_cons_self)

/-- A pattern is told apart from earlier ones by its first two characters. -/
theorem find_pair {char next : Char} {rest before after : Text} (apart : ¬[char, next] <:+: before ++ [char]) :
    find (char :: next :: rest) (before ++ (char :: next :: rest ++ after)) =
      some (byteLength before) := by
  refine find_first fun other others isSuffix starts => apart ?_
  obtain ⟨front, split⟩ := isSuffix
  obtain ⟨back, same⟩ := starts
  rw [← split, List.append_assoc]
  refine List.infix_append_of_infix_right ?_
  cases others with
  | nil =>
    simp only [List.cons_append, List.nil_append, List.cons.injEq] at same
    obtain ⟨rfl, rfl, _⟩ := same
    exact List.infix_refl _
  | cons second others =>
    simp only [List.cons_append, List.cons.injEq] at same
    obtain ⟨rfl, rfl, _⟩ := same
    exact ⟨[], others ++ [char], by simp⟩

theorem byte_length_step (char : Char) (rest : Text) :
    ∃ offset, byteLength (char :: rest) = offset + 1 ∧ char.utf8Size ≤ offset + 1 ∧
      offset + 1 - char.utf8Size = byteLength rest := by
  have positive := char.utf8Size_pos
  exact ⟨byteLength (char :: rest) - 1, by rw [byte_length_cons]; omega,
    by rw [byte_length_cons]; omega, by rw [byte_length_cons]; omega⟩

theorem slice_from_append (before after : Text) : sliceFrom (before ++ after) (byteLength before) = some after := by
  induction before with
  | nil => cases after <;> rfl
  | cons char rest ih =>
    obtain ⟨offset, same, enough, left⟩ := byte_length_step char rest
    rw [same, List.cons_append, sliceFrom, if_pos enough, left, ih]

theorem slice_to_append (before after : Text) : sliceTo (before ++ after) (byteLength before) = some before := by
  induction before with
  | nil => cases after <;> rfl
  | cons char rest ih =>
    obtain ⟨offset, same, enough, left⟩ := byte_length_step char rest
    rw [same, List.cons_append, sliceTo, if_pos enough, left, ih]
    rfl

theorem slice_after_find (found : find pattern text = some offset) :
    ∃ after, sliceFrom text (offset + byteLength pattern) = some after ∧
      offset + byteLength pattern + byteLength after = byteLength text := by
  obtain ⟨before, after, rfl, rfl⟩ := find_splits found
  refine ⟨after, ?_, by simp [Nat.add_assoc]⟩
  rw [← byte_length_append]
  exact slice_from_append (before ++ pattern) after

theorem slice_before_find
    (found : find pattern text = some offset) : ∃ before, sliceTo text offset = some before := by
  obtain ⟨before, after, rfl, rfl⟩ := find_splits found
  exact ⟨before, by rw [List.append_assoc]; exact slice_to_append before _⟩

/-- Of two beginnings of a text the one with fewer bytes begins the other. -/
theorem prefix_of_byte_length {text left right : Text} (isLeft : left <+: text)
    (isRight : right <+: text) (shorter : byteLength left ≤ byteLength right) : left <+: right := by
  rcases List.prefix_or_prefix_of_prefix isLeft isRight with inOrder | ⟨rest, rfl⟩
  · exact inOrder
  · cases rest with
    | nil => simp
    | cons char rest =>
      have positive := char.utf8Size_pos
      rw [byte_length_append, byte_length_cons] at shorter
      omega

theorem slice_between {first last text : Text} {start stop : Nat}
    (foundFirst : find first text = some start) (foundLast : find last text = some stop)
    (ordered : start + byteLength first ≤ stop) :
    ∃ inner, slice text (start + byteLength first) stop = some inner := by
  obtain ⟨before, after, same, rfl⟩ := find_splits foundFirst
  obtain ⟨front, back, split, rfl⟩ := find_splits foundLast
  have isFirst : before ++ first <+: text := ⟨after, same.symm⟩
  have isFront : front <+: text := ⟨last ++ back, by rw [split, List.append_assoc]⟩
  rw [← byte_length_append] at ordered ⊢
  obtain ⟨inner, rfl⟩ := prefix_of_byte_length isFirst isFront ordered
  refine ⟨inner, ?_⟩
  rw [slice, if_pos ordered, split, List.append_assoc (before ++ first ++ inner),
    List.append_assoc (before ++ first), slice_from_append, Option.bind_some, byte_length_append,
    Nat.add_sub_cancel_left, slice_to_append]

end Text

end Foundation
