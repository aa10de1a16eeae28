import Panoptikon.Foundation.TextParts

/-!
# Edited text

Replacing a pattern takes its occurrences from the left, none of which shares
a character with another. What a fold over the characters cannot tell apart may
be replaced by one another without changing the fold.
-/

namespace Foundation

namespace Text

/-- `skipped` characters still belong to the occurrence that was replaced last. -/
def replaceFrom (pattern replacement : Text) : Nat → Text → Text
  | _, [] => []
  | skipped + 1, _ :: rest => replaceFrom pattern replacement skipped rest
  | 0, char :: rest =>
      if pattern.isPrefixOf (char :: rest) then
        replacement ++ replaceFrom pattern replacement (pattern.length - 1) rest
      else char :: replaceFrom pattern replacement 0 rest

def replace (pattern replacement text : Text) : Text := replaceFrom pattern replacement 0 text

def splitWhitespace (text : Text) : List Text :=
  (text.splitOnP isWhitespace).filter fun piece => !piece.isEmpty

section Replace

variable {pattern : Text} (replacement : Text)

@[simp] theorem replace_nil : replace pattern replacement [] = [] := rfl

theorem replace_from_skips (skipped rest : Text) :
    replaceFrom pattern replacement skipped.length (skipped ++ rest) = replace pattern replacement rest := by
  induction skipped with
  | nil => rfl
  | cons char skipped ih => exact ih

theorem replace_found (nonempty : pattern ≠ []) (rest : Text) : replace pattern replacement (pattern ++ rest) =
      replacement ++ replace pattern replacement rest := by
  cases pattern with
  | nil => contradiction
  | cons char others =>
    have starts : (char :: others).isPrefixOf (char :: (others ++ rest)) = true :=
      List.isPrefixOf_iff_prefix.mpr (List.prefix_append (char :: others) rest)
    unfold replace
    rw [List.cons_append, replaceFrom, if_pos starts]
    apply congrArg (replacement ++ ·)
    exact replace_from_skips replacement others rest

theorem replace_passed {char : Char} {rest : Text} (differs : ¬pattern <+: char :: rest) :
    replace pattern replacement (char :: rest) = char :: replace pattern replacement rest := by
  unfold replace
  rw [replaceFrom, if_neg]
  exact fun starts => differs (List.isPrefixOf_iff_prefix.mp starts)

/-- A text is empty, or begins with the pattern, or with a character that begins no occurrence. -/
theorem replace_induction (pattern : Text) (nonempty : pattern ≠ []) {motive : Text → Prop}
    (empty : motive []) (found : ∀ rest, motive rest → motive (pattern ++ rest))
    (passed : ∀ char rest, ¬pattern <+: char :: rest → motive rest → motive (char :: rest))
    (text : Text) : motive text := by
  induction length : text.length using Nat.strongRecOn generalizing text with
  | ind size ih =>
    have positive := List.length_pos_iff.mpr nonempty
    cases text with
    | nil => exact empty
    | cons char rest =>
      by_cases starts : pattern <+: char :: rest
      · obtain ⟨later, same⟩ := starts
        rw [← same] at length ⊢
        rw [List.length_append] at length
        exact found later (ih later.length (by omega) later rfl)
      · rw [List.length_cons] at length
        exact passed char rest starts (ih rest.length (by omega) rest rfl)

theorem replace_char (char : Char) (text : Text) :
    replace [char] replacement text = text.flatMap fun other => if other = char then replacement else [other] := by
  induction text with
  | nil => rfl
  | cons other rest ih =>
    rw [List.flatMap_cons, ← ih]
    by_cases same : other = char
    · rw [if_pos same, same]
      exact replace_found replacement (List.cons_ne_nil char []) rest
    · rw [if_neg same]
      apply replace_passed
      rw [List.cons_prefix_cons]
      exact fun starts => same starts.1.symm

/-- Replacing is invisible to a fold that cannot tell the pattern from its replacement. -/
theorem foldlM_replace {State : Type} (step : State → Char → Option State) (nonempty : pattern ≠ [])
    (alike : ∀ state, replacement.foldlM step state = pattern.foldlM step state) (text : Text) (state : State) :
    (replace pattern replacement text).foldlM step state = text.foldlM step state := by
  induction text using replace_induction pattern nonempty generalizing state with
  | empty => rfl
  | found rest ih =>
    rw [replace_found replacement nonempty, List.foldlM_append, List.foldlM_append, alike]
    exact Option.bind_congr fun later _ => ih later
  | passed char rest differs ih =>
    rw [replace_passed replacement differs, List.foldlM_cons, List.foldlM_cons]
    exact Option.bind_congr fun later _ => ih later

theorem any_replace (kind : Char → Bool) (nonempty : pattern ≠ []) (kept : replacement.any kind = true)
    {text : Text} (present : text.any kind = true) : (replace pattern replacement text).any kind = true := by
  induction text using replace_induction pattern nonempty with
  | empty => exact present
  | found rest ih => rw [replace_found replacement nonempty, List.any_append, kept, Bool.true_or]
  | passed char rest differs ih =>
    rw [replace_passed replacement differs, List.any_cons, Bool.or_eq_true]
    rw [List.any_cons, Bool.or_eq_true] at present
    exact present.imp_right ih

end Replace

theorem split_whitespace_eq_nil {text : Text} :
    splitWhitespace text = [] ↔ ∀ char ∈ text, isWhitespace char = true := by
  unfold splitWhitespace
  rw [List.filter_eq_nil_iff]
  induction text with
  | nil => simp
  | cons char rest ih =>
    rw [List.splitOnP_cons_eq_if_modifyHead]
    cases blank : isWhitespace char with
    | true => simpa [blank] using ih
    | false =>
      have some_piece := List.splitOnP_ne_nil isWhitespace rest
      cases pieces : rest.splitOnP isWhitespace with
      | nil => exact absurd pieces some_piece
      | cons piece pieces => simp [blank]

end Text

end Foundation
