import Panoptikon.Transcode.ShareNames

/-!
# Share names are safe

What is stripped, escaped and cut is a path component that the sanitizer leaves alone,
except for its last character: only dots and spaces are trimmed off behind the other
whitespace, and nothing is trimmed after the cut.
-/

namespace Panoptikon.Transcode

open Foundation

/-- A character that no separator, no reserved character and no escape is. -/
def PlainChar (character : Char) : Prop :=
  character ∉ invalidFilenameChars ∧ isControl character = false ∧ character ≠ '%'

/-- What a path component may not begin with. -/
def StartsSolid (name : Text) : Prop := ∀ first ∈ name.head?, Text.isWhitespace first = false

def EndsSolid (name : Text) : Prop := ∀ last ∈ name.getLast?, Text.isWhitespace last = false

def EndsInDot (name : Text) : Prop := name.getLast? = some '.'

/-- A path component that every system can store under this name. -/
structure ShareName (ceiling : Nat) (name : Text) : Prop where
  nonempty : name ≠ []
  fits : Text.byteLength name ≤ ceiling
  plain : ∀ character ∈ name, PlainChar character
  starts : StartsSolid name
  ends : EndsSolid name
  noDot : ¬EndsInDot name
  unreserved : isReserved name = false

theorem safe_char_plain {character safe : Char} (isSafe : safeChar character = some safe) : PlainChar safe := by
  unfold safeChar at isSafe
  split at isSafe
  · cases isSafe
    unfold PlainChar
    decide
  · rename_i noPercent
    split at isSafe
    · cases isSafe
    · rename_i allowed
      cases isSafe
      rw [Bool.or_eq_true, not_or, List.elem_iff, Bool.not_eq_true] at allowed
      exact ⟨allowed.1, allowed.2, noPercent⟩

theorem safe_char_self {character : Char} (plain : PlainChar character) : safeChar character = some character := by
  have allowed : (invalidFilenameChars.elem character || isControl character) = false := by
    rw [Bool.or_eq_false_iff, ← Bool.not_eq_true, List.elem_iff]
    exact ⟨plain.1, plain.2.1⟩
  rw [safeChar, if_neg plain.2.2, allowed, if_neg Bool.false_ne_true]

theorem trim_parts (text : Text) : Text.trim text <:+: text ∧ StartsSolid (Text.trim text) := by
  obtain ⟨blank, -, split, first⟩ := Text.trim_start_splits text
  have both : Text.trim text = Text.trimEnd (Text.trimStart text) := rfl
  have isSuffix : Text.trimStart text <:+ text := ⟨blank, split.symm⟩
  rw [both]
  have isPrefix : Text.trimEnd (Text.trimStart text) <+: Text.trimStart text := by
    rw [← List.reverse_suffix, Text.trimEnd, List.reverse_reverse]
    exact List.dropWhile_suffix _
  refine ⟨isPrefix.isInfix.trans isSuffix.isInfix, ?_⟩
  intro char isFirst
  cases trimmed : Text.trimStart text with
  | nil =>
    rw [trimmed] at isFirst
    cases isFirst
  | cons solid rest =>
    have isSolid := first solid rest trimmed
    rw [trimmed] at isFirst
    have ended := Text.trim_end_around isSolid [] rest
    rw [List.nil_append, List.nil_append] at ended
    rw [ended] at isFirst
    cases isFirst
    exact isSolid

theorem strip_unsafe_plain (value : Text) : ∀ character ∈ stripUnsafe value, PlainChar character := by
  intro character member
  have trimmed := (Text.trim_end_chars_prefix _ _).subset member
  have filtered := (trim_parts _).1.subset trimmed
  obtain ⟨original, -, isSafe⟩ := List.mem_filterMap.mp filtered
  exact safe_char_plain isSafe

theorem starts_solid_prefix {front whole : Text} (isPrefix : front <+: whole) (solid : StartsSolid whole) :
    StartsSolid front := by
  obtain ⟨rest, rfl⟩ := isPrefix
  intro first isFirst
  apply solid first
  rw [List.head?_append, Option.mem_def.mp isFirst]
  rfl

theorem strip_unsafe_starts (value : Text) : StartsSolid (stripUnsafe value) :=
  starts_solid_prefix (Text.trim_end_chars_prefix _ _) (trim_parts _).2

theorem strip_unsafe_no_dot (value : Text) : ¬EndsInDot (stripUnsafe value) := by
  intro dotted
  exact Text.trim_end_chars_last dotted (by decide)

theorem strip_unsafe_self {name : Text} (plain : ∀ character ∈ name, PlainChar character) (starts : StartsSolid name)
    (ends : EndsSolid name) (noDot : ¬EndsInDot name) : stripUnsafe name = name := by
  have filtered : name.filterMap safeChar = name := by
    rw [← List.filterMap_some (l := name), List.filterMap_filterMap]
    apply List.filterMap_congr
    intro character member
    exact safe_char_self (plain character member)
  have trimmed : Text.trim name = name := by
    cases name with
    | nil => rfl
    | cons first rest =>
      have isSolid : Text.isWhitespace first = false := starts first rfl
      have both : Text.trim (first :: rest) = Text.trimEnd (Text.trimStart (first :: rest)) := rfl
      rw [both, Text.trim_start_solid isSolid]
      have split := List.dropLast_append_getLast (List.cons_ne_nil first rest)
      have isLast := ends _ (List.getLast?_eq_getLast_of_ne_nil (List.cons_ne_nil first rest))
      rw [← split, Text.trim_end_around isLast]
      rfl
  rw [stripUnsafe, filtered, trimmed]
  apply Text.trim_end_chars_self
  intro last isLast
  have solid := ends last isLast
  rw [List.mem_pair, not_or]
  constructor
  · rintro rfl
    exact noDot isLast
  · rintro rfl
    cases solid

theorem lower_ascii_size {char : Char} (ascii : char.toLower.toNat < 128) : char.utf8Size = 1 := by
  rw [Char.utf8Size_eq_one_iff]
  apply UInt32.le_iff_toNat_le.mpr
  change char.toNat ≤ 127
  by_cases upper : char.val ≥ 'A'.val ∧ char.val ≤ 'Z'.val
  · have small := UInt32.le_iff_toNat_le.mp upper.2
    exact Nat.le_trans small (by decide)
  · delta Char.toLower at ascii
    rw [dif_neg upper] at ascii
    omega

theorem lower_ascii_length {text : Text} (ascii : ∀ char ∈ Text.toAsciiLowercase text, char.toNat < 128) :
    Text.byteLength text = text.length := by
  induction text with
  | nil => rfl
  | cons char rest ih =>
    rw [Text.toAsciiLowercase, List.map_cons, List.forall_mem_cons] at ascii
    rw [Text.byte_length_cons, lower_ascii_size ascii.1, ih ascii.2, List.length_cons, Nat.add_comm]

theorem reserved_names_small : ∀ reserved ∈ reservedNames,
    reserved.length ≤ 4 ∧ (Text.toAsciiLowercase reserved).head? ≠ some '_' ∧
      ∀ char ∈ Text.toAsciiLowercase reserved, char.toNat < 128 := by
  have checked : reservedNames.all (fun reserved =>
      decide (reserved.length ≤ 4) && (Text.toAsciiLowercase reserved).head? != some '_' &&
        (Text.toAsciiLowercase reserved).all fun char => decide (char.toNat < 128)) = true := by
    rfl
  intro reserved isReserved
  have facts := List.all_eq_true.mp checked reserved isReserved
  rw [Bool.and_eq_true, Bool.and_eq_true, decide_eq_true_iff, bne_iff_ne, List.all_eq_true] at facts
  exact ⟨facts.1.1, facts.1.2, fun char member => of_decide_eq_true (facts.2 char member)⟩

theorem is_reserved_iff {name : Text} : isReserved name = true ↔
    ∃ reserved ∈ reservedNames, Text.toAsciiLowercase reserved = Text.toAsciiLowercase (firstPiece name) := by
  rw [isReserved, List.any_eq_true]
  simp only [eqIgnoreAsciiCase, decide_eq_true_iff]

theorem reserved_short {name : Text} (reserved : isReserved name = true) :
    Text.byteLength (firstPiece name) ≤ 4 := by
  obtain ⟨device, isDevice, same⟩ := is_reserved_iff.mp reserved
  obtain ⟨short, -, ascii⟩ := reserved_names_small device isDevice
  rw [same] at ascii
  rw [lower_ascii_length ascii]
  have lengths := congrArg List.length same
  rw [Text.toAsciiLowercase, Text.toAsciiLowercase, List.length_map, List.length_map] at lengths
  omega

theorem first_piece_dotted {front : Text} (dotted : '.' ∈ front) (rest : Text) :
    firstPiece (front ++ rest) = firstPiece front := by
  have shorter : (front.takeWhile (· != '.')).length ≠ front.length := by
    intro whole
    have all := List.takeWhile_eq_self_iff.mp ((List.takeWhile_prefix _).eq_of_length whole)
    exact absurd (all '.' dotted) (by decide)
  rw [firstPiece, firstPiece, List.takeWhile_append, if_neg shorter]

theorem first_piece_whole {front rest : Text} (noDot : '.' ∉ front) (ends : rest = [] ∨ rest.head? = some '.') :
    firstPiece (front ++ rest) = front := by
  have passed : ∀ char ∈ front, (char != '.') = true := by
    intro char member
    rw [bne_iff_ne]
    rintro rfl
    exact noDot member
  rw [firstPiece, List.takeWhile_append_of_pos passed]
  rcases ends with rfl | isDot
  · exact List.append_nil front
  · obtain ⟨later, rfl⟩ := List.head?_eq_some_iff.mp isDot
    rw [List.takeWhile_cons_of_neg (by decide), List.append_nil]

theorem escaped_unreserved (cleaned : Text) : isReserved (escapeReserved cleaned) = false := by
  unfold escapeReserved
  split
  · rw [← Bool.not_eq_true, is_reserved_iff]
    rintro ⟨device, isDevice, same⟩
    obtain ⟨-, noUnderscore, -⟩ := reserved_names_small device isDevice
    apply noUnderscore
    rw [same]
    rfl
  · rename_i unreserved
    exact Bool.eq_false_iff.mpr unreserved

theorem escaped_component {cleaned : Text} (nonempty : cleaned ≠ [])
    (plain : ∀ character ∈ cleaned, PlainChar character) (starts : StartsSolid cleaned) :
    escapeReserved cleaned ≠ [] ∧ (∀ character ∈ escapeReserved cleaned, PlainChar character) ∧
      StartsSolid (escapeReserved cleaned) ∧ (escapeReserved cleaned).getLast? = cleaned.getLast? := by
  unfold escapeReserved
  split
  · refine ⟨List.cons_ne_nil _ _, ?_, ?_, ?_⟩
    · rw [List.forall_mem_cons]
      refine ⟨?_, plain⟩
      unfold PlainChar
      decide
    · intro first isFirst
      cases isFirst
      decide
    · obtain ⟨first, rest, rfl⟩ := List.exists_cons_of_ne_nil nonempty
      rw [List.getLast?_cons_cons]
  · exact ⟨nonempty, plain, starts, rfl⟩

section Cutting

variable {name : Text} {ceiling : Nat}

theorem split_extension_parts (nonempty : name ≠ []) :
    name = (splitExtension name).1 ++ (splitExtension name).2 ∧ (splitExtension name).1 ≠ [] ∧
      ((splitExtension name).2 = [] ∨ (splitExtension name).2.head? = some '.') := by
  unfold splitExtension
  split
  · rename_i first stem extension isSplit
    obtain ⟨whole, rest, rfl, -⟩ := Text.split_last_eq_some isSplit
    exact ⟨whole, List.cons_ne_nil first stem, .inr rfl⟩
  · exact ⟨(List.append_nil name).symm, nonempty, .inl rfl⟩

theorem kept_extension_cases (name : Text) (ceiling : Nat) :
    keptExtension name ceiling = [] ∨ keptExtension name ceiling = (splitExtension name).2 := by
  unfold keptExtension
  split
  · exact .inl rfl
  · exact .inr rfl

theorem kept_extension_half (name : Text) (ceiling : Nat) :
    Text.byteLength (keptExtension name ceiling) ≤ ceiling / 2 := by
  unfold keptExtension
  split
  · exact Nat.zero_le _
  · omega

/-- What is left of the stem. -/
def cutStem (name : Text) (ceiling : Nat) : Text :=
  Text.cutTo (splitExtension name).1
    (min (Text.byteLength (splitExtension name).1) (ceiling - Text.byteLength (keptExtension name ceiling)))

theorem truncated_parts (name : Text) (ceiling : Nat) :
    truncated name ceiling = cutStem name ceiling ++ keptExtension name ceiling := rfl

theorem cut_stem_prefix (nonempty : name ≠ []) : cutStem name ceiling <+: name := by
  have whole := (split_extension_parts nonempty).1
  have isStem : (splitExtension name).1 <+: name := ⟨_, whole.symm⟩
  exact (Text.cut_to_opening _ _).trans isStem

theorem cut_stem_long (room : 16 ≤ ceiling) (name : Text) :
    cutStem name ceiling = (splitExtension name).1 ∨ 4 < Text.byteLength (cutStem name ceiling) := by
  have half := kept_extension_half name ceiling
  by_cases fits : Text.byteLength (splitExtension name).1 ≤
      ceiling - Text.byteLength (keptExtension name ceiling)
  · apply Or.inl
    rw [cutStem, Nat.min_eq_left fits]
    exact Text.cut_to_all (Nat.le_refl _)
  · apply Or.inr
    have tight := Text.cut_to_tight (Nat.lt_of_not_le fits)
    rw [cutStem, Nat.min_eq_right (Nat.le_of_not_le fits)]
    omega

theorem cut_stem_nonempty (room : 16 ≤ ceiling) (nonempty : name ≠ []) : cutStem name ceiling ≠ [] := by
  rcases cut_stem_long room name with whole | long
  · rw [whole]
    exact (split_extension_parts nonempty).2.1
  · intro empty
    rw [empty] at long
    exact absurd long (by decide)

theorem truncated_fits (name : Text) (ceiling : Nat) : Text.byteLength (truncated name ceiling) ≤ ceiling := by
  have within := Text.cut_to_within (splitExtension name).1
    (min (Text.byteLength (splitExtension name).1) (ceiling - Text.byteLength (keptExtension name ceiling)))
  have half := kept_extension_half name ceiling
  rw [truncated_parts, Text.byte_length_append, cutStem]
  omega

theorem truncated_unreserved (room : 16 ≤ ceiling) (nonempty : name ≠ []) (unreserved : isReserved name = false) :
    isReserved (truncated name ceiling) = false := by
  obtain ⟨whole, -, ends⟩ := split_extension_parts nonempty
  have keptEnds : keptExtension name ceiling = [] ∨ (keptExtension name ceiling).head? = some '.' := by
    rcases kept_extension_cases name ceiling with dropped | kept
    · exact .inl dropped
    · rw [kept]
      exact ends
  have samePiece {other : Text} (same : firstPiece other = firstPiece name) : isReserved other = false := by
    have transferred : isReserved other = isReserved name := by rw [isReserved, isReserved, same]
    rw [transferred, unreserved]
  rw [truncated_parts]
  by_cases dotted : '.' ∈ cutStem name ceiling
  · apply samePiece
    obtain ⟨rest, split⟩ := cut_stem_prefix nonempty
    rw [first_piece_dotted dotted, ← first_piece_dotted dotted rest, split]
  · have piece := first_piece_whole dotted keptEnds
    rcases cut_stem_long room name with stem | long
    · apply samePiece
      rw [piece, stem]
      rw [stem] at dotted
      rw [← first_piece_whole dotted ends, ← whole]
    · rw [← Bool.not_eq_true]
      intro reserved
      have short := reserved_short reserved
      rw [piece] at short
      omega

/-- A cut name keeps the end of its extension, and else the end of what is left of the stem. -/
theorem truncated_last (nonempty : name ≠ []) : (truncated name ceiling).getLast? =
      if keptExtension name ceiling = [] then (cutStem name ceiling).getLast? else name.getLast? := by
  rw [truncated_parts]
  split
  · rename_i dropped
    rw [dropped, List.append_nil]
  · rename_i kept
    have isExtension := (kept_extension_cases name ceiling).resolve_left kept
    have split := (split_extension_parts nonempty).1
    obtain ⟨last, isLast⟩ := List.getLast?_isSome.mpr kept |> Option.isSome_iff_exists.mp
    have wholeLast : name.getLast? = some last := by
      rw [split, ← isExtension, List.getLast?_append, isLast]
      rfl
    rw [List.getLast?_append, isLast, wholeLast]
    rfl

end Cutting

/-- The name that is cut, or not. -/
def escapedName (name : Text) : Text := escapeReserved (stripUnsafe name)

/-- A name that exceeds the ceiling and has no extension that is kept. -/
def CutsEnd (ceiling : Nat) (name : Text) : Prop :=
  ceiling < Text.byteLength name ∧ keptExtension name ceiling = []

instance (ceiling : Nat) (name : Text) : Decidable (CutsEnd ceiling name) :=
  inferInstanceAs (Decidable (_ ∧ _))

/-- The stripped name ends in no whitespace. Where its end is cut off, the last character of the stem
that fits is neither whitespace nor a dot. -/
def EndsWell (ceiling : Nat) (name : Text) : Prop :=
  if CutsEnd ceiling (escapedName name) then
    EndsSolid (Text.cutTo (splitExtension (escapedName name)).1 ceiling) ∧
      ¬EndsInDot (Text.cutTo (splitExtension (escapedName name)).1 ceiling)
  else EndsSolid (stripUnsafe name)

section Sanitizing

variable {ceiling : Nat} {name shared : Text}

theorem sanitize_cleaned (room : 16 ≤ ceiling) (usable : stripUnsafe name ≠ []) :
    sanitizeShareNameWithin name ceiling =
      some (if Text.byteLength (escapedName name) ≤ ceiling then escapedName name
        else truncated (escapedName name) ceiling) := by
  obtain ⟨nonempty, -, -, -⟩ :=
    escaped_component usable (strip_unsafe_plain name) (strip_unsafe_starts name)
  have isEmpty : (stripUnsafe name).isEmpty = false := List.isEmpty_eq_false_iff.mpr usable
  unfold sanitizeShareNameWithin
  simp only [isEmpty, Bool.false_eq_true, ↓reduceIte]
  change truncateShareName (escapedName name) ceiling = _
  unfold truncateShareName
  split
  · rfl
  · have stem := cut_stem_nonempty room nonempty
    have longer : truncated (escapedName name) ceiling ≠ keptExtension (escapedName name) ceiling := by
      rw [truncated_parts]
      intro same
      exact stem (List.append_left_eq_self.mp same)
    have something : truncated (escapedName name) ceiling ≠ [] := by
      rw [truncated_parts]
      exact List.append_ne_nil_of_left_ne_nil stem _
    rw [if_pos ⟨something, longer⟩]

theorem shared_name_iff (room : 16 ≤ ceiling) (found : sanitizeShareNameWithin name ceiling = some shared) :
    ShareName ceiling shared ↔ EndsSolid shared ∧ ¬EndsInDot shared := by
  constructor
  · intro isName
    exact ⟨isName.ends, isName.noDot⟩
  · rintro ⟨ends, noDot⟩
    have usable : stripUnsafe name ≠ [] := by
      intro empty
      unfold sanitizeShareNameWithin at found
      rw [empty] at found
      cases found
    obtain ⟨nonempty, plain, starts, -⟩ :=
      escaped_component usable (strip_unsafe_plain name) (strip_unsafe_starts name)
    have unreserved := escaped_unreserved (stripUnsafe name)
    rw [sanitize_cleaned room usable, Option.some.injEq] at found
    subst found
    change escapedName name ≠ [] at nonempty
    change isReserved (escapedName name) = false at unreserved
    split at ends
    · rename_i fits
      rw [if_pos fits] at noDot ⊢
      exact ⟨nonempty, fits, plain, starts, ends, noDot, unreserved⟩
    · rename_i exceeds
      rw [if_neg exceeds] at noDot ⊢
      have stem := cut_stem_nonempty room nonempty
      have inside : cutStem (escapedName name) ceiling <+: escapedName name := cut_stem_prefix nonempty
      refine ⟨?_, truncated_fits _ _, ?_, ?_, ends, noDot, truncated_unreserved room nonempty unreserved⟩
      · rw [truncated_parts]
        exact List.append_ne_nil_of_left_ne_nil stem _
      · intro character member
        apply plain
        rw [truncated_parts, List.mem_append] at member
        rcases member with inStem | inExtension
        · exact inside.subset inStem
        · rcases kept_extension_cases (escapedName name) ceiling with dropped | kept
          · rw [dropped] at inExtension
            cases inExtension
          · rw [kept] at inExtension
            change character ∈ escapedName name
            rw [(split_extension_parts nonempty).1]
            exact List.mem_append_right _ inExtension
      · intro first isFirst
        apply starts_solid_prefix inside starts first
        obtain ⟨head, rest, same⟩ := List.exists_cons_of_ne_nil stem
        rw [truncated_parts, same] at isFirst
        rw [same]
        exact isFirst

theorem share_name_fixed (isName : ShareName ceiling shared) :
    sanitizeShareNameWithin shared ceiling = some shared := by
  have stripped := strip_unsafe_self isName.plain isName.starts isName.ends isName.noDot
  have isEmpty : shared.isEmpty = false := List.isEmpty_eq_false_iff.mpr isName.nonempty
  unfold sanitizeShareNameWithin
  simp only [stripped, isEmpty, Bool.false_eq_true, ↓reduceIte]
  rw [escapeReserved, isName.unreserved, if_neg Bool.false_ne_true, truncateShareName, if_pos isName.fits]

theorem cut_stem_ceiling (dropped : keptExtension name ceiling = []) :
    cutStem name ceiling = Text.cutTo (splitExtension name).1 ceiling := by
  rw [cutStem, dropped, Text.byte_length_nil, Nat.sub_zero]
  by_cases fits : Text.byteLength (splitExtension name).1 ≤ ceiling
  · rw [Nat.min_eq_left fits, Text.cut_to_all (Nat.le_refl _), Text.cut_to_all fits]
  · rw [Nat.min_eq_right (Nat.le_of_not_le fits)]

theorem shared_ends_iff (room : 16 ≤ ceiling) (found : sanitizeShareNameWithin name ceiling = some shared) :
    EndsSolid shared ∧ ¬EndsInDot shared ↔ EndsWell ceiling name := by
  have usable : stripUnsafe name ≠ [] := by
    intro empty
    unfold sanitizeShareNameWithin at found
    rw [empty] at found
    cases found
  obtain ⟨nonempty, -, -, sameLast⟩ :=
    escaped_component usable (strip_unsafe_plain name) (strip_unsafe_starts name)
  change escapedName name ≠ [] at nonempty
  change (escapedName name).getLast? = _ at sameLast
  have noDot := strip_unsafe_no_dot name
  rw [sanitize_cleaned room usable, Option.some.injEq] at found
  subst found
  unfold EndsWell
  have uncut {kept : Text} (same : kept.getLast? = (stripUnsafe name).getLast?) :
      EndsSolid kept ∧ ¬EndsInDot kept ↔ EndsSolid (stripUnsafe name) := by
    unfold EndsSolid EndsInDot at *
    rw [same, and_iff_left noDot]
  by_cases fits : Text.byteLength (escapedName name) ≤ ceiling
  · rw [if_pos fits, if_neg fun cuts => absurd cuts.1 (Nat.not_lt.mpr fits)]
    exact uncut sameLast
  · rw [if_neg fits]
    have last : (truncated (escapedName name) ceiling).getLast? = _ := truncated_last nonempty
    by_cases dropped : keptExtension (escapedName name) ceiling = []
    · rw [if_pos ⟨Nat.lt_of_not_le fits, dropped⟩, ← cut_stem_ceiling dropped]
      rw [if_pos dropped] at last
      unfold EndsSolid EndsInDot
      rw [last]
    · rw [if_neg dropped, sameLast] at last
      rw [if_neg fun cuts => dropped cuts.2]
      exact uncut last

theorem ends_well_unusable (unusable : stripUnsafe name = []) : EndsWell ceiling name := by
  have escaped : escapedName name = [] := by
    rw [escapedName, unusable]
    rfl
  have uncut : ¬CutsEnd ceiling (escapedName name) := by
    rw [escaped]
    exact fun cuts => Nat.not_lt_zero _ cuts.1
  rw [EndsWell, if_neg uncut, unusable]
  intro last isLast
  cases isLast

end Sanitizing

/-- Whatever is shared is a share name that the sanitizer leaves alone, and the desktop's name too,
exactly if the name ends well. -/
theorem shared_safe_iff (ceiling : Nat) (room : 16 ≤ ceiling) (name : Text) :
    ((∀ shared, sanitizeShareNameWithin name ceiling = some shared →
        ShareName ceiling shared ∧ sanitizeShareNameWithin shared ceiling = some shared) ∧
      ∀ shared sha256, sanitizeShareNameWithin name maxShareNameBytes = some shared →
        Desktop.sanitizeFilename name sha256 = shared) ↔
      EndsWell ceiling name := by
  constructor
  · rintro ⟨safe, -⟩
    by_cases unusable : stripUnsafe name = []
    · exact ends_well_unusable unusable
    · have found := sanitize_cleaned room unusable
      exact (shared_ends_iff room found).mp ((shared_name_iff room found).mp (safe _ found).1)
  · intro endsWell
    refine ⟨?_, fun shared sha256 found => desktop_same found sha256⟩
    intro shared found
    have isName := (shared_name_iff room found).mpr ((shared_ends_iff room found).mpr endsWell)
    exact ⟨isName, share_name_fixed isName⟩

theorem shared_safe_photo :
    (∀ shared, sanitizeShareNameWithin "photo.png".toList 16 = some shared →
        ShareName 16 shared ∧ sanitizeShareNameWithin shared 16 = some shared) ∧
      ∀ shared sha256, sanitizeShareNameWithin "photo.png".toList maxShareNameBytes = some shared →
        Desktop.sanitizeFilename "photo.png".toList sha256 = shared := by
  apply (shared_safe_iff 16 (by decide) "photo.png".toList).mpr
  have uncut : ¬CutsEnd 16 (escapedName "photo.png".toList) := by decide +kernel
  have stripped : stripUnsafe "photo.png".toList = "photo.png".toList := by decide +kernel
  rw [EndsWell, if_neg uncut, stripped]
  intro last isLast
  cases isLast
  rfl

/-- The cut leaves a blank at the end, and the next pass takes it off. -/
theorem shared_blank :
    ∃ shared, sanitizeShareNameWithin "fifteen letters of a name".toList 16 = some shared ∧
      ¬EndsSolid shared ∧ sanitizeShareNameWithin shared 16 ≠ some shared := by
  refine ⟨"fifteen letters ".toList, by decide +kernel, ?_, by decide +kernel⟩
  intro solid
  have isBlank := solid ' ' (by rfl)
  cases isBlank

end Panoptikon.Transcode
