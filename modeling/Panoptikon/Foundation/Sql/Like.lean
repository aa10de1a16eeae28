import Mathlib.Data.List.Infix
import Mathlib.Data.List.Forall2

/-!
# LIKE

A pattern is a list of characters: `%` stands for any run, `_` for any one
character, anything else for itself. Unless LIKE is case-sensitive, ASCII
letters match in either case. A pattern without the two wildcards matches
itself and nothing else up to case, so with a `%` at an end it tests a prefix,
a suffix or an infix.
-/

namespace Foundation.Sql

def sameChar (caseSensitive : Bool) (pattern char : Char) : Bool :=
  if caseSensitive then pattern = char else pattern.toLower = char.toLower

def likeChars (caseSensitive : Bool) : List Char → List Char → Bool
  | [], text => text.isEmpty
  | pattern :: rest, text =>
      if pattern = '%' then text.tails.any (likeChars caseSensitive rest)
      else
        match text with
        | [] => false
        | char :: later =>
            (pattern = '_' || sameChar caseSensitive pattern char) &&
              likeChars caseSensitive rest later

variable (caseSensitive : Bool)

theorem like_chars_cons (pattern : Char) (rest text : List Char) :
    likeChars caseSensitive (pattern :: rest) text =
      if pattern = '%' then text.tails.any (likeChars caseSensitive rest)
      else
        match text with
        | [] => false
        | char :: later =>
          (pattern = '_' || sameChar caseSensitive pattern char) &&
            likeChars caseSensitive rest later := by
  cases text <;> rfl

def like (caseSensitive : Bool) (pattern text : String) : Bool :=
  likeChars caseSensitive pattern.toList text.toList

/-- No character of the pattern is a wildcard. -/
def Literal (pattern : List Char) : Prop := '%' ∉ pattern ∧ '_' ∉ pattern

instance (pattern : List Char) : Decidable (Literal pattern) :=
  inferInstanceAs (Decidable (_ ∧ _))

/-- Equal, up to case where LIKE ignores it. -/
def SameChars (caseSensitive : Bool) (pattern text : List Char) : Prop :=
  List.Forall₂ (fun left right => sameChar caseSensitive left right = true) pattern text

section Literal

variable {caseSensitive : Bool} {pattern rest text : List Char}

theorem like_chars_any : likeChars caseSensitive ('%' :: rest) text = true ↔
    ∃ skipped later, text = skipped ++ later ∧ likeChars caseSensitive rest later = true := by
  rw [like_chars_cons, if_pos rfl, List.any_eq_true]
  constructor
  · rintro ⟨later, suffix, matched⟩
    obtain ⟨skipped, split⟩ := (List.mem_tails _ _).mp suffix
    exact ⟨skipped, later, split.symm, matched⟩
  · rintro ⟨skipped, later, rfl, matched⟩
    exact ⟨later, (List.mem_tails _ _).mpr (List.suffix_append _ _), matched⟩

/-- A literal front of a pattern takes a front of the text of the same length. -/
theorem like_chars_append (literal : Literal pattern) : likeChars caseSensitive (pattern ++ rest) text = true ↔
      ∃ front later, text = front ++ later ∧ SameChars caseSensitive pattern front ∧
        likeChars caseSensitive rest later = true := by
  induction pattern generalizing text with
  | nil =>
    constructor
    · intro matched
      exact ⟨[], text, rfl, List.Forall₂.nil, matched⟩
    · rintro ⟨front, later, rfl, same, matched⟩
      cases same
      exact matched
  | cons first others ih =>
    have notAny : first ≠ '%' := fun equal => literal.1 (by simp [equal])
    have notOne : first ≠ '_' := fun equal => literal.2 (by simp [equal])
    have othersLiteral : Literal others :=
      ⟨fun member => literal.1 (by simp [member]), fun member => literal.2 (by simp [member])⟩
    rw [List.cons_append, like_chars_cons, if_neg notAny]
    cases text with
    | nil =>
      simp only [Bool.false_eq_true, false_iff]
      rintro ⟨front, later, split, same, _⟩
      obtain ⟨rfl, rfl⟩ := List.append_eq_nil_iff.mp split.symm
      cases same
    | cons char later =>
      simp only [notOne, decide_false, Bool.false_or, Bool.and_eq_true, ih othersLiteral]
      constructor
      · rintro ⟨sameFirst, front, rest', rfl, same, matched⟩
        exact ⟨char :: front, rest', rfl, List.Forall₂.cons sameFirst same, matched⟩
      · rintro ⟨front, rest', split, same, matched⟩
        cases same with
        | cons sameFirst same =>
          obtain ⟨rfl, rfl⟩ := List.cons_eq_cons.mp split
          exact ⟨sameFirst, _, rest', rfl, same, matched⟩

theorem like_chars_nil : likeChars caseSensitive [] text = true ↔ text = [] := by
  simp [likeChars]

theorem like_chars_all : likeChars caseSensitive ['%'] text = true :=
  like_chars_any.mpr ⟨text, [], (List.append_nil _).symm, rfl⟩

/-- A pattern that ends in `%` matches every text that starts as it reads. -/
theorem like_chars_prefix (same : pattern <+: text) : likeChars caseSensitive (pattern ++ ['%']) text = true := by
  obtain ⟨later, rfl⟩ := same
  induction pattern with
  | nil => exact like_chars_all
  | cons first others ih =>
    rw [List.cons_append, List.cons_append, like_chars_cons]
    split_ifs
    · exact List.any_eq_true.mpr ⟨_, (List.mem_tails _ _).mpr (List.suffix_cons first _), ih⟩
    · have sameFirst : sameChar caseSensitive first first = true := by cases caseSensitive <;> simp [sameChar]
      dsimp only
      rw [sameFirst, Bool.or_true, Bool.true_and]
      exact ih

section

variable (literal : Literal pattern)

include literal

theorem like_chars_literal :
    likeChars caseSensitive pattern text = true ↔ SameChars caseSensitive pattern text := by
  have whole := @like_chars_append caseSensitive pattern [] text literal
  rw [List.append_nil] at whole
  rw [whole]
  constructor
  · rintro ⟨front, later, rfl, same, ended⟩
    rw [like_chars_nil.mp ended, List.append_nil]
    exact same
  · intro same
    exact ⟨text, [], (List.append_nil _).symm, same, rfl⟩

theorem prefix_like_chars :
    likeChars caseSensitive (pattern ++ ['%']) text = true ↔
      ∃ front, front <+: text ∧ SameChars caseSensitive pattern front := by
  rw [like_chars_append literal]
  constructor
  · rintro ⟨front, later, rfl, same, _⟩
    exact ⟨front, List.prefix_append _ _, same⟩
  · rintro ⟨front, ⟨later, rfl⟩, same⟩
    exact ⟨front, later, rfl, same, like_chars_all⟩

theorem like_chars_suffix : likeChars caseSensitive ('%' :: pattern) text = true ↔
      ∃ back, back <:+ text ∧ SameChars caseSensitive pattern back := by
  rw [like_chars_any]
  constructor
  · rintro ⟨skipped, later, rfl, matched⟩
    exact ⟨later, List.suffix_append _ _, (like_chars_literal literal).mp matched⟩
  · rintro ⟨back, ⟨skipped, rfl⟩, same⟩
    exact ⟨skipped, back, rfl, (like_chars_literal literal).mpr same⟩

theorem infix_like_chars :
    likeChars caseSensitive ('%' :: (pattern ++ ['%'])) text = true ↔
      ∃ middle, middle <:+: text ∧ SameChars caseSensitive pattern middle := by
  rw [like_chars_any]
  constructor
  · rintro ⟨skipped, later, rfl, matched⟩
    obtain ⟨front, ⟨rest, rfl⟩, same⟩ := (prefix_like_chars literal).mp matched
    exact ⟨front, ⟨skipped, rest, by simp⟩, same⟩
  · rintro ⟨middle, ⟨skipped, rest, rfl⟩, same⟩
    refine ⟨skipped, middle ++ rest, by simp, ?_⟩
    exact (prefix_like_chars literal).mpr ⟨middle, List.prefix_append _ _, same⟩

end

end Literal

/-- The pattern holds no letter that matches in two cases. -/
def Caseless (pattern : List Char) : Prop := ∀ char ∈ pattern, char.isAlpha = false

variable {char : Char}

theorem is_upper_iff : char.isUpper = true ↔ 'A'.val ≤ char.val ∧ char.val ≤ 'Z'.val :=
  decide_eq_true_iff

theorem is_lower_iff : char.isLower = true ↔ 'a'.val ≤ char.val ∧ char.val ≤ 'z'.val := by
  change (decide ('a'.val ≤ char.val) && decide (char.val ≤ 'z'.val)) = true ↔ _
  rw [Bool.and_eq_true, decide_eq_true_iff, decide_eq_true_iff]

theorem is_alpha_iff : char.isAlpha = true ↔ char.isUpper = true ∨ char.isLower = true := by
  change (char.isUpper || char.isLower) = true ↔ _
  rw [Bool.or_eq_true]

theorem lower_eq_of_not_alpha {left right : Char} (caseless : left.isAlpha = false)
    (same : left.toLower = right.toLower) : left = right := by
  have notUpper : ¬(left.val ≥ 'A'.val ∧ left.val ≤ 'Z'.val) := by
    intro upper
    have alpha := is_alpha_iff.mpr (.inl (is_upper_iff.mpr upper))
    rw [alpha] at caseless
    cases caseless
  delta Char.toLower at same
  rw [dif_neg notUpper] at same
  split at same
  · rename_i upper
    exfalso
    have bounds : ¬('a'.val ≤ left.val ∧ left.val ≤ 'z'.val) := fun lower =>
      absurd (is_alpha_iff.mpr (.inr (is_lower_iff.mpr lower))) (Bool.eq_false_iff.mp caseless)
    subst same
    have low := UInt32.le_iff_toNat_le.mp upper.1
    have high := UInt32.le_iff_toNat_le.mp upper.2
    simp only [UInt32.le_iff_toNat_le, UInt32.toNat_add, UInt32.toNat_sub] at bounds
    have a : ('a'.val).toNat = 97 := rfl
    have z : ('z'.val).toNat = 122 := rfl
    have A : ('A'.val).toNat = 65 := rfl
    have Z : ('Z'.val).toNat = 90 := rfl
    omega
  · exact same

theorem same_chars_iff_eq {caseSensitive : Bool} {pattern text : List Char}
    (settled : caseSensitive = true ∨ Caseless pattern) :
    SameChars caseSensitive pattern text ↔ pattern = text := by
  constructor
  · intro same
    induction same with
    | nil => rfl
    | @cons left right lefts rights first _ ih =>
      have rest : caseSensitive = true ∨ Caseless lefts :=
        settled.imp_right fun caseless char member => caseless char (by simp [member])
      have equal : left = right := by
        rcases settled with rfl | caseless
        · simpa [sameChar] using first
        · unfold sameChar at first
          split_ifs at first
          · simpa using first
          · exact lower_eq_of_not_alpha (caseless left (by simp)) (by simpa using first)
      rw [equal, ih rest]
  · rintro rfl
    exact List.forall₂_same.mpr fun char _ => by simp [sameChar]

def otherCase (char : Char) : Char := if char.isUpper then char.toLower else char.toUpper

theorem other_case_ascii : ∀ code < 128, (Char.ofNat code).isAlpha = true →
    (Char.ofNat code).toLower = (otherCase (Char.ofNat code)).toLower ∧
      otherCase (Char.ofNat code) ≠ Char.ofNat code := by
  decide

theorem other_case (letter : char.isAlpha = true) :
    char.toLower = (otherCase char).toLower ∧ otherCase char ≠ char := by
  have ascii : char.toNat < 128 := by
    rw [is_alpha_iff, is_upper_iff, is_lower_iff] at letter
    have high : char.val.toNat ≤ 122 := by
      rcases letter with ⟨_, upper⟩ | ⟨_, upper⟩
      · exact (UInt32.le_iff_toNat_le.mp upper).trans (by decide)
      · exact UInt32.le_iff_toNat_le.mp upper
    exact Nat.lt_of_le_of_lt high (by decide)
  have whole := other_case_ascii char.toNat ascii
  rw [Char.ofNat_toNat] at whole
  exact whole letter

/-- Matches in the same places, with every wildcard and, where LIKE ignores
case, every letter replaced. -/
def lookalikeChar (caseSensitive : Bool) (char : Char) : Char :=
  if char = '%' ∨ char = '_' then 'x'
  else if caseSensitive = false ∧ char.isAlpha = true then otherCase char
  else char

def lookalike (caseSensitive : Bool) (pattern : List Char) : List Char :=
  pattern.map (lookalikeChar caseSensitive)

/-- What a pattern matches verbatim: no wildcard, and no letter that matches in
two cases. -/
def Plain (caseSensitive : Bool) (pattern : List Char) : Prop :=
  Literal pattern ∧ (caseSensitive = true ∨ Caseless pattern)

theorem lookalike_char_matches (notAny : char ≠ '%') :
    (char = '_' || sameChar caseSensitive char (lookalikeChar caseSensitive char)) = true := by
  by_cases one : char = '_'
  · simp [one]
  · simp only [one, decide_false, Bool.false_or, lookalikeChar, notAny, or_self, if_false]
    split_ifs with folded
    · simp [sameChar, folded.1, (other_case folded.2).1]
    · simp [sameChar]

theorem like_chars_lookalike (pattern rest later : List Char)
    (matched : likeChars caseSensitive rest later = true) :
    likeChars caseSensitive (pattern ++ rest) (lookalike caseSensitive pattern ++ later) = true := by
  induction pattern with
  | nil => exact matched
  | cons char others ih =>
    rw [List.cons_append]
    by_cases any : char = '%'
    · subst any
      exact like_chars_any.mpr ⟨['x'], lookalike caseSensitive others ++ later, rfl, ih⟩
    · rw [like_chars_cons, if_neg any]
      simp only [lookalike, List.map_cons, List.cons_append, Bool.and_eq_true]
      exact ⟨lookalike_char_matches caseSensitive any, ih⟩

theorem lookalike_eq_iff {caseSensitive : Bool} {pattern : List Char} :
    lookalike caseSensitive pattern = pattern ↔ Plain caseSensitive pattern := by
  have fixed : ∀ char, lookalikeChar caseSensitive char = char ↔
      char ≠ '%' ∧ char ≠ '_' ∧ (caseSensitive = true ∨ char.isAlpha = false) := by
    intro char
    unfold lookalikeChar
    split_ifs with wild folded
    · rcases wild with rfl | rfl <;> simp
    · have moved := (other_case folded.2).2
      simp [moved, folded]
    · push Not at wild folded
      cases caseSensitive <;> simp_all
  have pointwise : lookalike caseSensitive pattern = pattern ↔
      ∀ char ∈ pattern, lookalikeChar caseSensitive char = char := by
    induction pattern with
    | nil => simp [lookalike]
    | cons char others ih => simp_all [lookalike]
  rw [pointwise]
  simp only [fixed, Plain, Literal, Caseless]
  constructor
  · intro all
    refine ⟨⟨fun member => (all _ member).1 rfl, fun member => (all _ member).2.1 rfl⟩, ?_⟩
    cases caseSensitive with
    | true => exact Or.inl rfl
    | false => exact Or.inr fun char member => ((all char member).2.2).resolve_left (by simp)
  · rintro ⟨⟨noAny, noOne⟩, settled⟩ char member
    refine ⟨fun any => noAny (any ▸ member), fun one => noOne (one ▸ member), ?_⟩
    exact settled.imp_right fun caseless => caseless char member

theorem int_text_chars {number : Int} (member : char ∈ (toString number).toList) :
    char = '-' ∨ char.isDigit = true := by
  have digit : ∀ {magnitude : Nat}, char ∈ magnitude.repr.toList → char.isDigit = true := by
    intro magnitude member
    rw [Nat.toList_repr] at member
    exact Nat.isDigit_of_mem_toDigits (by decide) (by decide) member
  rw [Int.toString_eq_repr, Int.repr_eq_if] at member
  split at member
  · exact Or.inr (digit member)
  · rw [String.toList_append, List.mem_append] at member
    rcases member with sign | rest
    · exact Or.inl (List.mem_singleton.mp sign)
    · exact Or.inr (digit rest)

theorem digit_not_alpha (digit : char.isDigit = true) : char.isAlpha = false := by
  simp only [Char.isDigit, Bool.and_eq_true, decide_eq_true_eq] at digit
  have high : char.val.toNat ≤ 57 := UInt32.le_iff_toNat_le.mp digit.2
  have notUpper : ¬ 'A'.val ≤ char.val := fun low =>
    absurd (UInt32.le_iff_toNat_le.mp low) (by change ¬65 ≤ char.val.toNat; omega)
  have notLower : ¬ 'a'.val ≤ char.val := fun low =>
    absurd (UInt32.le_iff_toNat_le.mp low) (by change ¬97 ≤ char.val.toNat; omega)
  rw [Bool.eq_false_iff, ne_eq, is_alpha_iff, is_upper_iff, is_lower_iff]
  rintro (upper | lower)
  · exact notUpper upper.1
  · exact notLower lower.1

theorem plain_int_text (number : Int) : Plain caseSensitive (toString number).toList := by
  refine ⟨⟨fun any => ?_, fun one => ?_⟩, Or.inr fun char member => ?_⟩
  · exact absurd (int_text_chars any) (by decide)
  · exact absurd (int_text_chars one) (by decide)
  · rcases int_text_chars member with rfl | digit
    · rfl
    · exact digit_not_alpha digit

end Foundation.Sql
