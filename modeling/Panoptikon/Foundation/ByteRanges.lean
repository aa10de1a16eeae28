import Panoptikon.Foundation.TextLines

/-!
# Byte ranges

The byte-range part of RFC 9110: what a range-spec selects of a body, and the
grammar of a `bytes=` range set. The grammar takes the gaps it allows as
parameters, around the commas and everywhere else; the RFC allows spaces and
tabs around the commas only.
-/

namespace Foundation.ByteRanges

inductive RangeSpec where
  | int (first : Nat) (last : Option Nat)
  | suffix (length : Nat)

/-- The byte at `position` of a body of `size` bytes is selected. -/
def RangeSpec.Selects (size : Nat) : RangeSpec → Nat → Prop
  | .int first last, position => position < size ∧ first ≤ position ∧ ∀ bound ∈ last, position ≤ bound
  | .suffix length, position => position < size ∧ size ≤ position + length

/-- The selected bytes as their first and last position. -/
def RangeSpec.selected (size : Nat) : RangeSpec → Option (Nat × Nat)
  | .int first last =>
      if first < size then some (first, last.elim (size - 1) fun bound => min bound (size - 1))
      else none
  | .suffix length => if length = 0 ∨ size = 0 then none else some (size - length, size - 1)

/-- The last position of a spec is not before its first. -/
def RangeSpec.Ordered : RangeSpec → Prop
  | .int first last => ∀ bound ∈ last, first ≤ bound
  | .suffix _ => True

/-- The positions are below a bound. -/
def RangeSpec.Below (bound : Nat) : RangeSpec → Prop
  | .int first last => first < bound ∧ ∀ position ∈ last, position < bound
  | .suffix length => length < bound

variable {spec : RangeSpec}

theorem selected_bounds {size : Nat} (ordered : spec.Ordered)
    {start stop : Nat} (isSelected : spec.selected size = some (start, stop)) : start ≤ stop ∧ stop < size ∧
      ∀ position, spec.Selects size position ↔ start ≤ position ∧ position ≤ stop := by
  cases spec with
  | int first last =>
    rw [RangeSpec.selected] at isSelected
    split at isSelected
    · rename_i inside
      cases isSelected
      cases last with
      | none =>
        simp only [Option.elim_none, RangeSpec.Selects, Option.not_mem_none, false_implies,
          implies_true, and_true]
        refine ⟨by omega, by omega, ?_⟩
        intro position
        omega
      | some bound =>
        have proper : start ≤ bound := ordered bound rfl
        simp only [Option.elim_some, RangeSpec.Selects, Option.mem_some_iff, forall_eq']
        refine ⟨by omega, by omega, ?_⟩
        intro position
        omega
    · exact absurd isSelected.symm (Option.some_ne_none _)
  | suffix length =>
    rw [RangeSpec.selected] at isSelected
    split at isSelected
    · exact absurd isSelected.symm (Option.some_ne_none _)
    · rename_i nonempty
      cases isSelected
      simp only [RangeSpec.Selects]
      refine ⟨by omega, by omega, ?_⟩
      intro position
      omega

theorem selected_eq_none_iff {size : Nat} (ordered : spec.Ordered) :
    spec.selected size = none ↔ ∀ position, ¬spec.Selects size position := by
  constructor
  · intro isNone position selects
    cases spec with
    | int first last =>
      obtain ⟨inside, after, -⟩ := selects
      rw [RangeSpec.selected, if_pos (by omega)] at isNone
      exact Option.some_ne_none _ isNone
    | suffix length =>
      obtain ⟨inside, after⟩ := selects
      rw [RangeSpec.selected, if_neg (by omega)] at isNone
      exact Option.some_ne_none _ isNone
  · intro empty
    cases isSelected : spec.selected size with
    | none => rfl
    | some bounds =>
      obtain ⟨proper, -, same⟩ := selected_bounds ordered isSelected
      exact absurd ((same bounds.1).mpr ⟨Nat.le_refl _, proper⟩) (empty bounds.1)

/-- `1*DIGIT`, of any length. -/
structure Digits (text : Text) (value : Nat) : Prop where
  nonempty : text ≠ []
  digits : ∀ char ∈ text, char.isDigit = true
  value : Nat.ofDigitChars 10 text 0 = value

section Grammar

variable (around gap : Text → Prop)

inductive Spec : Text → RangeSpec → Prop where
  | bounded {firstText lastText before after : Text} {first last : Nat}
      (start : Digits firstText first) (beforeHyphen : gap before) (afterHyphen : gap after)
      (stop : Digits lastText last) (ordered : first ≤ last) :
      Spec (firstText ++ before ++ '-' :: after ++ lastText) (.int first (some last))
  | unbounded {firstText before : Text} {first : Nat}
      (start : Digits firstText first) (beforeHyphen : gap before) :
      Spec (firstText ++ before ++ ['-']) (.int first none)
  | suffix {after lengthText : Text} {length : Nat}
      (afterHyphen : gap after) (digits : Digits lengthText length) :
      Spec ('-' :: after ++ lengthText) (.suffix length)

/-- A member of the list may be empty. -/
inductive Element : Text → List RangeSpec → Prop where
  | empty : Element [] []
  | spec {text : Text} {spec : RangeSpec} (spelled : Spec gap text spec) : Element text [spec]

inductive Elements : Text → List RangeSpec → Prop where
  | last {text : Text} {specs : List RangeSpec} (element : Element gap text specs) :
      Elements text specs
  | more {text before after rest : Text} {specs later : List RangeSpec}
      (element : Element gap text specs) (beforeComma : around before) (afterComma : around after)
      (elements : Elements rest later) :
      Elements (text ++ before ++ ',' :: after ++ rest) (specs ++ later)

/-- The header is a range set of bytes with these specs, at least one. -/
def RangeSet (header : Text) (specs : List RangeSpec) : Prop :=
  ∃ before unit lead list after, gap before ∧ gap lead ∧ gap after ∧
    Text.toAsciiLowercase unit = "bytes=".toList ∧ Elements around gap list specs ∧ specs ≠ [] ∧
    header = before ++ (unit ++ (lead ++ list ++ after))

end Grammar

/-- Spaces and tabs. -/
def Ows (text : Text) : Prop := ∀ char ∈ text, char = ' ' ∨ char = '\t'

def NoGap (text : Text) : Prop := text = []

/-- A range set as the RFC spells it. -/
def Strict : Text → List RangeSpec → Prop := RangeSet Ows NoGap

/-- A range set with white space wherever two parts meet. -/
def Lenient : Text → List RangeSpec → Prop := RangeSet Text.Blank Text.Blank

variable {text : Text}

theorem Spec.is_ordered {gap : Text → Prop} (spelled : Spec gap text spec) : spec.Ordered := by
  cases spelled with
  | bounded start beforeHyphen afterHyphen stop ordered =>
    intro bound isBound
    cases isBound
    exact ordered
  | unbounded start beforeHyphen =>
    intro bound isBound
    exact absurd isBound (Option.not_mem_none bound)
  | suffix afterHyphen digits => trivial

theorem Elements.is_ordered {around gap : Text → Prop} {specs : List RangeSpec}
    (elements : Elements around gap text specs) : ∀ spec ∈ specs, spec.Ordered := by
  have single {text : Text} {specs : List RangeSpec} (element : Element gap text specs) :
      ∀ spec ∈ specs, spec.Ordered := by
    intro spec member
    cases element with
    | empty => cases member
    | spec spelled =>
      rw [List.mem_singleton.mp member]
      exact spelled.is_ordered
  induction elements with
  | last element => exact single element
  | more element _ _ _ ih =>
    intro spec member
    rcases List.mem_append.mp member with here | later
    · exact single element spec here
    · exact ih spec later

theorem lenient_ordered {header : Text} {specs : List RangeSpec} (lenient : Lenient header specs) :
    ∀ spec ∈ specs, spec.Ordered := by
  obtain ⟨before, unit, lead, list, after, -, -, -, -, elements, -⟩ := lenient
  exact elements.is_ordered

variable {char : Char}

theorem digit_apart (digit : char.isDigit = true) :
    Text.isWhitespace char = false ∧ char ≠ '-' ∧ char ≠ ',' ∧ char ≠ '+' := by
  rw [Char.isDigit_iff_toNat] at digit
  have zero : '0'.toNat = 48 := rfl
  have nine : '9'.toNat = 57 := rfl
  have code (other : Char) (same : char = other) : char.toNat = other.toNat := congrArg Char.toNat same
  refine ⟨?_, ?_, ?_, ?_⟩
  · unfold Text.isWhitespace
    simp only [Bool.or_eq_false_iff, Bool.and_eq_false_iff, decide_eq_false_iff_not]
    omega
  · intro same
    have value := code _ same
    have hyphen : '-'.toNat = 45 := rfl
    omega
  · intro same
    have value := code _ same
    have comma : ','.toNat = 44 := rfl
    omega
  · intro same
    have value := code _ same
    have plus : '+'.toNat = 43 := rfl
    omega

theorem blank_apart (blank : Text.isWhitespace char = true) : char ≠ '-' ∧ char ≠ ',' := by
  refine ⟨?_, ?_⟩
  · rintro rfl
    exact absurd blank (by decide)
  · rintro rfl
    exact absurd blank (by decide)

/-- No character is white space. -/
def Solid (text : Text) : Prop := ∀ char ∈ text, Text.isWhitespace char = false

theorem Digits.solid {value : Nat} (digits : Digits text value) : Solid text := by
  intro char member
  exact (digit_apart (digits.digits char member)).1

theorem Digits.absent {value : Nat} (digits : Digits text value) (apart : char.isDigit = false) : char ∉ text := by
  intro member
  rw [digits.digits char member] at apart
  exact absurd apart (by decide)

theorem Blank.reverse (blank : Text.Blank text) : Text.Blank text.reverse := by
  intro char member
  exact blank char (List.mem_reverse.mp member)

theorem blank_append {left right : Text} (isLeft : Text.Blank left) (isRight : Text.Blank right) :
    Text.Blank (left ++ right) := by
  intro char member
  rcases List.mem_append.mp member with inLeft | inRight
  · exact isLeft char inLeft
  · exact isRight char inRight

theorem trim_start_between {before core gap : Text} (isBefore : Text.Blank before)
    (solid : Solid core) (closed : core = [] → gap = []) :
    Text.trimStart (before ++ (core ++ gap)) = core ++ gap := by
  rw [Text.trim_start_append isBefore]
  cases core with
  | nil =>
    rw [closed rfl]
    rfl
  | cons char rest => exact Text.trim_start_solid (solid char List.mem_cons_self) _

theorem trim_end_between {after core gap : Text} (isAfter : Text.Blank after)
    (solid : Solid core) (closed : core = [] → gap = []) : Text.trimEnd (gap ++ core ++ after) = gap ++ core := by
  have backwards : Solid core.reverse := by
    intro char member
    exact solid char (List.mem_reverse.mp member)
  have closedBackwards : core.reverse = [] → gap.reverse = [] := by
    intro empty
    rw [closed (List.reverse_eq_nil_iff.mp empty), List.reverse_nil]
  unfold Text.trimEnd
  rw [List.reverse_append, List.reverse_append,
    trim_start_between (Blank.reverse isAfter) backwards closedBackwards, ← List.reverse_append,
    List.reverse_reverse]

theorem trim_between {before after core : Text} (isBefore : Text.Blank before)
    (isAfter : Text.Blank after) (solid : Solid core) : Text.trim (before ++ core ++ after) = core := by
  have both (text : Text) : Text.trim text = Text.trimEnd (Text.trimStart text) := rfl
  have closed : core = [] → ([] : Text) = [] := fun _ => rfl
  rw [Text.trim_blank_end isAfter, both]
  have first : Text.trimStart (before ++ (core ++ [])) = core ++ [] := trim_start_between isBefore solid closed
  rw [List.append_nil] at first
  rw [first]
  have last : Text.trimEnd ([] ++ core ++ []) = [] ++ core :=
    trim_end_between Text.blank_nil solid closed
  rw [List.nil_append, List.append_nil] at last
  exact last

theorem trim_splits (text : Text) : ∃ before after, Text.Blank before ∧ Text.Blank after ∧
    text = before ++ Text.trim text ++ after := by
  obtain ⟨before, isBefore, split, -⟩ := Text.trim_start_splits text
  obtain ⟨after, isAfter, splitBack, -⟩ := Text.trim_start_splits (Text.trimStart text).reverse
  refine ⟨before, after.reverse, isBefore, Blank.reverse isAfter, ?_⟩
  have whole := congrArg List.reverse splitBack
  rw [List.reverse_reverse, List.reverse_append] at whole
  rw [List.append_assoc]
  exact split.trans (congrArg (before ++ ·) whole)

section Pieces

variable {text : Text} {spec : RangeSpec} {specs : List RangeSpec}

/-- A piece between two commas: blank, or a spec between blanks. -/
inductive Piece : Text → List RangeSpec → Prop where
  | blank {piece : Text} (isBlank : Text.Blank piece) : Piece piece []
  | spec {before core after : Text} {spec : RangeSpec} (isBefore : Text.Blank before)
      (isAfter : Text.Blank after) (spelled : Spec Text.Blank core spec) :
      Piece (before ++ core ++ after) [spec]

inductive Pieces : List Text → List RangeSpec → Prop where
  | nil : Pieces [] []
  | cons {piece : Text} {pieces : List Text} {specs later : List RangeSpec}
      (first : Piece piece specs) (rest : Pieces pieces later) :
      Pieces (piece :: pieces) (specs ++ later)

theorem comma_not_blank (blank : Text.Blank text) : ',' ∉ text := by
  intro member
  exact (blank_apart (blank _ member)).2 rfl

theorem hyphen_not_blank (blank : Text.Blank text) : '-' ∉ text := by
  intro member
  exact (blank_apart (blank _ member)).1 rfl

theorem comma_not_spec (spelled : Spec Text.Blank text spec) : ',' ∉ text := by
  have other : ',' ≠ '-' := by decide
  have noDigit : ','.isDigit = false := by decide
  cases spelled with
  | bounded start beforeHyphen afterHyphen stop ordered =>
    simp only [List.mem_append, List.mem_cons, not_or]
    exact ⟨⟨⟨start.absent noDigit, comma_not_blank beforeHyphen⟩, other, comma_not_blank afterHyphen⟩,
      stop.absent noDigit⟩
  | unbounded start beforeHyphen =>
    simp only [List.mem_append, List.mem_singleton, not_or]
    exact ⟨⟨start.absent noDigit, comma_not_blank beforeHyphen⟩, other⟩
  | suffix afterHyphen digits =>
    simp only [List.mem_append, List.mem_cons, not_or]
    exact ⟨⟨other, comma_not_blank afterHyphen⟩, digits.absent noDigit⟩

theorem Element.piece {before after : Text} (element : Element Text.Blank text specs)
    (isBefore : Text.Blank before) (isAfter : Text.Blank after) :
    Piece (before ++ text ++ after) specs ∧ ',' ∉ before ++ text ++ after := by
  cases element with
  | empty =>
    rw [List.append_nil]
    have blank := blank_append isBefore isAfter
    exact ⟨.blank blank, comma_not_blank blank⟩
  | spec spelled =>
    constructor
    · exact .spec isBefore isAfter spelled
    · simp only [List.mem_append, not_or]
      exact ⟨⟨comma_not_blank isBefore, comma_not_spec spelled⟩, comma_not_blank isAfter⟩

theorem split_on_comma_single (absent : ',' ∉ text) : text.splitOn ',' = [text] := by
  exact List.splitOn_eq_singleton absent

theorem Elements.pieces (elements : Elements Text.Blank Text.Blank text specs) {lead trail : Text}
    (isLead : Text.Blank lead) (isTrail : Text.Blank trail) :
    Pieces ((lead ++ text ++ trail).splitOn ',') specs := by
  induction elements generalizing lead with
  | last element =>
    obtain ⟨piece, noComma⟩ := element.piece isLead isTrail
    rw [split_on_comma_single noComma]
    have single := Pieces.cons piece .nil
    rwa [List.append_nil] at single
  | @more text before after rest specs later element beforeComma afterComma elements ih =>
    obtain ⟨piece, noComma⟩ := element.piece isLead beforeComma
    have shape : lead ++ (text ++ before ++ ',' :: after ++ rest) ++ trail =
        (lead ++ text ++ before) ++ ',' :: (after ++ rest ++ trail) := by simp
    rw [shape, List.splitOn_append_cons_self_of_not_mem noComma]
    exact .cons piece (ih afterComma)

theorem Pieces.elements {pieces : List Text} (isPieces : Pieces pieces specs) (nonempty : pieces ≠ []) :
    ∃ lead list trail, Text.Blank lead ∧ Text.Blank trail ∧
      Elements Text.Blank Text.Blank list specs ∧
      List.intercalate [','] pieces = lead ++ list ++ trail := by
  have noBlank := Text.blank_nil
  have split {piece : Text} {specs : List RangeSpec} (isPiece : Piece piece specs) :
      ∃ before core after, Text.Blank before ∧ Text.Blank after ∧ Element Text.Blank core specs ∧
        piece = before ++ core ++ after := by
    cases isPiece with
    | blank isBlank => exact ⟨_, [], [], isBlank, noBlank, .empty, by simp⟩
    | spec isBefore isAfter spelled => exact ⟨_, _, _, isBefore, isAfter, .spec spelled, rfl⟩
  induction isPieces with
  | nil => exact absurd rfl nonempty
  | @cons piece pieces specs later first rest ih =>
    obtain ⟨before, core, after, isBefore, isAfter, element, rfl⟩ := split first
    cases pieces with
    | nil =>
      cases rest
      refine ⟨before, core, after, isBefore, isAfter, ?_, ?_⟩
      · rw [List.append_nil]
        exact .last element
      · simp [List.intercalate]
    | cons next others =>
      obtain ⟨lead, list, trail, isLead, isTrail, elements, same⟩ := ih (List.cons_ne_nil _ _)
      refine ⟨before, core ++ after ++ ',' :: lead ++ list, trail, isBefore, isTrail,
        .more element isAfter isLead elements, ?_⟩
      rw [List.intercalate_cons_cons, same]
      simp

end Pieces

end Foundation.ByteRanges
