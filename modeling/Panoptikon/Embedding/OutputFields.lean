import Panoptikon.Embedding.HeaderSpelling
import Panoptikon.Embedding.Output

/-!
# The fields of the output side

The output side looks for a key with its colon and cuts the value at a comma. A
key spelled otherwise is not found, and a value that no comma follows keeps the
end of the dictionary.
-/

namespace Panoptikon.Embedding

open Foundation

namespace Output

theorem field_end_char {char : Char} (depth : Int) (offset : Nat) (rest : Text) (opening : char ≠ '(')
    (closing : char ≠ ')') (comma : char ≠ ',' ∨ depth ≠ 0) :
    fieldEnd depth offset (char :: rest) = fieldEnd depth (offset + char.utf8Size) rest := by
  by_cases isComma : char = ','
  · rw [isComma, fieldEnd, if_neg (comma.resolve_left fun differs => differs isComma)]
    rfl
  · rw [fieldEnd]
    · exact fun same => opening same
    · exact fun same => closing same
    · exact fun same => isComma same

/-- The scan passes a text without parentheses, and commas only inside some. -/
theorem field_end_passes {depth : Int} (offset : Nat) {text : Text} (rest : Text) (opening : '(' ∉ text)
    (closing : ')' ∉ text) (comma : ',' ∉ text ∨ depth ≠ 0) :
    fieldEnd depth offset (text ++ rest) = fieldEnd depth (offset + Text.byteLength text) rest := by
  induction text generalizing offset with
  | nil => rfl
  | cons char others ih =>
    rw [List.mem_cons, not_or] at opening closing
    have first : char ≠ ',' ∨ depth ≠ 0 := by
      apply comma.imp_left
      intro absent same
      exact absent (by rw [same]; exact List.mem_cons_self)
    rw [List.cons_append, field_end_char depth offset _ (Ne.symm opening.1) (Ne.symm closing.1) first,
      ih (offset + char.utf8Size) opening.2 closing.2 (comma.imp_left fun absent isOther =>
        absent (List.mem_cons_of_mem char isOther)), Text.byte_length_cons, Nat.add_assoc]

/-- `trim`, `trim_matches` and `trim_parens` stop at a last character that they keep. -/
theorem trimmed_last {drops : Char → Bool} {text : Text} {last : Char} (isLast : text.getLast? = some last)
    (stays : drops last = false) : ((text.dropWhile drops).reverse.dropWhile drops).reverse.getLast? = some last := by
  obtain ⟨front, rfl⟩ := List.getLast?_eq_some_iff.mp isLast
  have kept : ∃ behind, (front ++ [last]).dropWhile drops = behind ++ [last] := by
    rw [List.dropWhile_append]
    split
    · exact ⟨[], by rw [List.dropWhile_cons_of_neg (by simp [stays]), List.nil_append]⟩
    · exact ⟨_, rfl⟩
  obtain ⟨behind, isBehind⟩ := kept
  rw [isBehind, List.reverse_concat, List.dropWhile_cons_of_neg (by simp [stays]), List.reverse_cons,
    List.getLast?_concat]

def FloatType.descr : FloatType → Text
  | .f2 => "<f2".toList
  | .f4 => "<f4".toList
  | .f8 => "<f8".toList

theorem float_type_eq_ok {descr : Text} {read : FloatType} (known : floatType descr = .ok read) :
    descr = read.descr := by
  unfold floatType at known
  split at known
  · rename_i same
    cases known
    exact same
  · split at known
    · rename_i same
      cases known
      exact same
    · split at known
      · rename_i same
        cases known
        exact same
      · cases known

theorem solid_kept {char : Char} {text : Text} (solid : Text.isWhitespace char = false) (member : char ∈ text) :
    char ∈ text.trim := by
  have kept {text : Text} (member : char ∈ text) : char ∈ text.trimStart := by
    rw [← @List.takeWhile_append_dropWhile _ Text.isWhitespace text] at member
    refine (List.mem_append.mp member).resolve_left fun isBlank => ?_
    rw [List.mem_takeWhile_imp isBlank] at solid
    cases solid
  rw [Text.trim, List.mem_reverse]
  apply kept
  rw [List.mem_reverse]
  exact kept member

theorem parse_digits_chars {digits : Text} {value : Nat} (parsed : parseDigits digits = some value) :
    ∀ digit ∈ digits, digit.isDigit = true := by
  unfold parseDigits at parsed
  generalize 0 = start at parsed
  induction digits generalizing start with
  | nil => exact List.forall_mem_nil _
  | cons digit rest ih =>
    rw [List.foldlM_cons] at parsed
    obtain ⟨next, isNext, later⟩ := Option.bind_eq_some_iff.mp parsed
    split at isNext
    · rename_i isDigit
      exact List.forall_mem_cons.mpr ⟨isDigit, ih next later⟩
    · cases isNext

theorem parse_usize_chars {text : Text} {value : Nat} (parsed : parseUsize text = some value) :
    ∀ char ∈ text, char = '+' ∨ char.isDigit = true := by
  unfold parseUsize at parsed
  split at parsed
  · cases parsed
  · cases parsed
  · exact List.forall_mem_cons.mpr ⟨.inl rfl, fun char member => .inr (parse_digits_chars parsed char member)⟩
  · exact fun char member => .inr (parse_digits_chars parsed char member)

/-- No part of a shape holds the end of the dictionary. -/
theorem parse_parts_closed {parts : List Text} {dims : List Nat} (parsed : parseParts parts = some dims) :
    ∀ part ∈ parts, '\x7d' ∉ part := by
  induction parts generalizing dims with
  | nil => exact nofun
  | cons part rest ih =>
    rw [parseParts] at parsed
    split at parsed
    · rename_i blank
      refine List.forall_mem_cons.mpr ⟨?_, ih parsed⟩
      intro closed
      have kept := solid_kept (by decide) closed
      rw [List.isEmpty_iff.mp blank] at kept
      cases kept
    · obtain ⟨value, isValue, parsed⟩ := Option.bind_eq_some_iff.mp parsed
      obtain ⟨values, isRest, -⟩ := Option.bind_eq_some_iff.mp parsed
      refine List.forall_mem_cons.mpr ⟨?_, ih isRest⟩
      intro closed
      rcases parse_usize_chars isValue _ (solid_kept (by decide) closed) with isPlus | isDigit
      · exact absurd isPlus (by decide)
      · exact absurd isDigit (by decide)

theorem piece_of_mem {char : Char} {text : Text} (member : char ∈ text) (noComma : char ≠ ',') :
    ∃ piece ∈ text.splitOn ',', char ∈ piece := by
  induction text with
  | nil => cases member
  | cons head rest ih =>
    rw [List.splitOn_cons_eq_if_modifyHead]
    split
    · rename_i comma
      have later := (List.mem_cons.mp member).resolve_left fun same => noComma (same.trans (beq_iff_eq.mp comma))
      obtain ⟨piece, isPiece, within⟩ := ih later
      exact ⟨piece, List.mem_cons_of_mem _ isPiece, within⟩
    · cases split : rest.splitOn ',' with
      | nil => exact absurd split (List.splitOn_ne_nil _ _)
      | cons first others =>
        rw [List.modifyHead_cons]
        rcases List.mem_cons.mp member with rfl | later
        · exact ⟨_, List.mem_cons_self, List.mem_cons_self⟩
        · obtain ⟨piece, isPiece, within⟩ := ih later
          rw [split] at isPiece
          rcases List.mem_cons.mp isPiece with rfl | isOther
          · exact ⟨_, List.mem_cons_self, List.mem_cons_of_mem _ within⟩
          · exact ⟨piece, List.mem_cons_of_mem _ isOther, within⟩

theorem parse_shape_closed {text : Text} {dims : List Nat} (last : text.getLast? = some '\x7d') :
    parseShape text ≠ .ok dims := by
  intro parsed
  unfold parseShape at parsed
  obtain ⟨_, -, parsed⟩ := bind_ok parsed
  obtain ⟨parts, isParts, -⟩ := bind_ok parsed
  have kept : (trimParens text.trim).getLast? = some '\x7d' := trimmed_last (trimmed_last last (by decide)) (by decide)
  obtain ⟨piece, isPiece, within⟩ := piece_of_mem (List.mem_of_getLast? kept) (by decide)
  exact parse_parts_closed (ok_or_eq_ok.mp isParts) piece isPiece within

theorem trim_parens_around {inner : Text} (opening : '(' ∉ inner) (closing : ')' ∉ inner) :
    trimParens ('(' :: (inner ++ [')'])) = inner := by
  have plain : ∀ char ∈ inner, isParen char = false := by
    intro char member
    rw [isParen, Bool.or_eq_false_iff, decide_eq_false_iff_not, decide_eq_false_iff_not]
    exact ⟨fun same => opening (same ▸ member), fun same => closing (same ▸ member)⟩
  have solid {text behind : Text} (filled : text ≠ []) (within : ∀ char ∈ text, char ∈ inner) :
      (text ++ behind).dropWhile isParen = text ++ behind := by
    obtain ⟨char, rest, rfl⟩ := List.exists_cons_of_ne_nil filled
    rw [List.cons_append, List.dropWhile_cons_of_neg]
    rw [plain char (within char List.mem_cons_self)]
    exact Bool.false_ne_true
  by_cases empty : inner = []
  · rw [empty]
    rfl
  · have back := @solid inner.reverse [] (by simpa using empty) (by simp)
    rw [List.append_nil] at back
    rw [trimParens, List.dropWhile_cons_of_pos (by decide), solid empty fun _ member => member, List.reverse_concat,
      List.dropWhile_cons_of_pos (by decide), back, List.reverse_reverse]

end Output

namespace HeaderSpelling

open Output

section Field

variable (spelling : HeaderSpelling) (values : HeaderValues)

/-- The key is found by `parse_npy_field`: in single quotes, with the colon right behind them. -/
def Seen (key : NpyKey) : Prop := spelling.quote key = .single ∧ (spelling.beforeColon key).1 = []

instance (key : NpyKey) : Decidable (spelling.Seen key) := inferInstanceAs (Decidable (_ ∧ _))

variable (key : NpyKey)

theorem field_end_written (behind : Text) : fieldEnd 0 0 (spelling.written values key ++ behind) =
    fieldEnd 0 (Text.byteLength (spelling.written values key)) behind := by
  have passes {text : Text} (plain : '(' ∉ text ∧ ')' ∉ text ∧ ',' ∉ text) :
      fieldEnd 0 0 (text ++ behind) = fieldEnd 0 (Text.byteLength text) behind := by
    rw [field_end_passes 0 _ plain.1 plain.2.1 (.inl plain.2.2), Nat.zero_add]
  cases key with
  | descr =>
    have typed {char : Char} (mark : char ∈ ['(', ')', ',']) : char ∉ spelling.written values .descr := by
      have noQuote : char ≠ spelling.descrQuote.char := by
        rintro rfl
        revert mark
        cases spelling.descrQuote <;> decide
      have absent : char ∉ values.descr := fun member =>
        values.typed char member (List.mem_cons_of_mem _ (List.mem_cons_of_mem _ mark))
      simp [written, noQuote, absent]
    exact passes ⟨typed (by decide), typed (by decide), typed (by decide)⟩
  | fortranOrder =>
    apply passes
    rw [written]
    cases values.fortran <;> decide
  | shape =>
    have opening : '(' ∉ spelling.dims 0 values.shape := dims_apart _ _ _ (by decide) (by decide) (by decide)
    have closing : ')' ∉ spelling.dims 0 values.shape := dims_apart _ _ _ (by decide) (by decide) (by decide)
    have same : spelling.written values .shape ++ behind = '(' :: (spelling.dims 0 values.shape ++ ')' :: behind) := by
      simp [written]
    rw [same, fieldEnd, if_pos (by decide), field_end_passes _ _ opening closing (.inr (by decide)), fieldEnd]
    change fieldEnd 0 _ behind = fieldEnd 0 (Text.byteLength ('(' :: (spelling.dims 0 values.shape ++ [')']))) behind
    rw [Text.byte_length_cons, Text.byte_length_append]
    rfl

/-- What `parse_npy_field` takes for the value: to the comma, or all that is left of the header. -/
def fieldText (key : NpyKey) : Text :=
  spelling.written values key ++ if spelling.Followed key then [] else
    (spelling.behind key).1 ++ (spelling.closing.1 ++ ['\x7d'])

theorem written_ends : (∀ char ∈ (spelling.written values key).head?, Text.isWhitespace char = false) ∧
    ∀ char ∈ (spelling.written values key).getLast?, Text.isWhitespace char = false := by
  have around {first last : Char} (text : Text) (start : Text.isWhitespace first = false)
      (stop : Text.isWhitespace last = false) :
      (∀ char ∈ (first :: (text ++ [last])).head?, Text.isWhitespace char = false) ∧
        ∀ char ∈ (first :: (text ++ [last])).getLast?, Text.isWhitespace char = false := by
    constructor
    · intro char isHead
      rw [← Option.some.inj isHead, start]
    · intro char isLast
      rw [← List.cons_append, List.getLast?_concat] at isLast
      rw [← Option.some.inj isLast, stop]
  cases key with
  | descr => exact around values.descr (by cases spelling.descrQuote <;> rfl) (by cases spelling.descrQuote <;> rfl)
  | fortranOrder =>
    rw [written]
    cases values.fortran with
    | true => exact around ['r', 'u'] (by decide) (by decide)
    | false => exact around ['a', 'l', 's'] (by decide) (by decide)
  | shape => exact around _ (by decide) (by decide)

theorem written_filled : spelling.written values key ≠ [] := by
  cases key with
  | descr => simp [written]
  | fortranOrder =>
    rw [written]
    cases values.fortran <;> decide
  | shape => simp [written]

theorem scan_apart (blank : Blank) : '(' ∉ blank.1 ∧ ')' ∉ blank.1 ∧ ',' ∉ blank.1 :=
  ⟨blank_apart blank (by decide), blank_apart blank (by decide), blank_apart blank (by decide)⟩

theorem field_end_behind {text : Text} (apart : '(' ∉ text ∧ ')' ∉ text ∧ ',' ∉ text) (rest : Text) :
    fieldEnd 0 0 (spelling.written values key ++ (text ++ rest)) =
      fieldEnd 0 (Text.byteLength (spelling.written values key ++ text)) rest := by
  rw [field_end_written, field_end_passes _ _ apart.1 apart.2.1 (.inl apart.2.2), Text.byte_length_append]

/-- What is cut out and trimmed is the written value, up to the end where no comma follows. -/
theorem field_cut {follow : Text} (follows : spelling.Followed key ∧ (∃ rest, follow = ',' :: rest) ∨
      ¬spelling.Followed key ∧ follow = spelling.ending) : ∃ found taken,
    fieldEnd 0 0 (spelling.written values key ++ ((spelling.behind key).1 ++ follow)) = .ok found ∧
    Text.sliceTo (spelling.written values key ++ ((spelling.behind key).1 ++ follow)) (if found = 0 then
      Text.byteLength (spelling.written values key ++ ((spelling.behind key).1 ++ follow)) else found) = some taken ∧
    Text.trim taken = spelling.fieldText values key := by
  have ends := written_ends spelling values key
  obtain ⟨first, others, isWritten⟩ := List.exists_cons_of_ne_nil (written_filled spelling values key)
  rcases follows with ⟨followed, rest, rfl⟩ | ⟨ended, rfl⟩
  · have positive : Text.byteLength (spelling.written values key ++ (spelling.behind key).1) ≠ 0 := by
      rw [isWritten, List.cons_append, Text.byte_length_cons]
      exact Nat.ne_of_gt (Nat.add_pos_left (Char.utf8Size_pos _) _)
    have trimmed := trim_around ⟨[], by simp⟩ (spelling.behind key) ends.1 ends.2
    refine ⟨Text.byteLength (spelling.written values key ++ (spelling.behind key).1),
      spelling.written values key ++ (spelling.behind key).1, ?_, ?_, ?_⟩
    · rw [field_end_behind spelling values key (scan_apart _), fieldEnd, if_pos rfl]
    · rw [if_neg positive, ← List.append_assoc]
      exact Text.slice_to_append _ _
    · rw [fieldText, if_pos followed, List.append_nil]
      exact trimmed
  · have apart : '(' ∉ (spelling.behind key).1 ++ spelling.ending ∧ ')' ∉ (spelling.behind key).1 ++ spelling.ending ∧
        ',' ∉ (spelling.behind key).1 ++ spelling.ending := by
      simp [ending, scan_apart]
    have last : (spelling.fieldText values key).getLast? = some '\x7d' := by
      rw [fieldText, if_neg ended, ← List.append_assoc, ← List.append_assoc, List.getLast?_concat]
    have trimmed := @trim_around ⟨[], by simp⟩ spelling.padding (spelling.fieldText values key) ?_ ?_
    · refine ⟨0, spelling.written values key ++ ((spelling.behind key).1 ++ spelling.ending), ?_, ?_, ?_⟩
      · have scanned := field_end_behind spelling values key apart []
        rwa [List.append_nil, fieldEnd] at scanned
      · have whole := Text.slice_to_append (spelling.written values key ++
          ((spelling.behind key).1 ++ spelling.ending)) []
        rwa [List.append_nil] at whole
      · rw [← trimmed, fieldText, if_neg ended]
        simp [ending]
    · intro char isHead
      rw [fieldText, isWritten] at isHead
      apply ends.1 char
      rwa [isWritten]
    · intro char isLast
      rw [last] at isLast
      rw [← Option.some.inj isLast]
      decide

theorem needle_eq {letters : Text} (isName : key.name.toList = key.initial :: letters) :
    needle key.name = '\'' :: key.initial :: (letters ++ ['\'', ':']) := by
  simp [needle, quoted, isName]

theorem needle_absent {key : NpyKey} (unseen : ¬spelling.Seen key) :
    ¬needle key.name <:+: spelling.header values := by
  obtain ⟨front, follow, isHeader, silent, -⟩ := key_placed spelling values key
  obtain ⟨letters, isName⟩ := key_name key
  have single := silent .single
  have behind := @behind_silent spelling values .single key key _ single.2
  rw [isHeader, needle_eq key isName]
  cases isQuote : spelling.quote key with
  | double =>
    intro found
    have whole : Silent Quote.single.char key.initial
        (front ++ (quoted Quote.double.char key.name ++ spelling.fromColon values key follow)) := by
      refine silent_append single.1 (silent_append ?_ behind)
      cases key <;> decide
    exact whole.1 (List.IsInfix.trans ⟨[], _, rfl⟩ found)
  | single =>
    obtain ⟨char, blanks, isBlank⟩ := List.exists_cons_of_ne_nil fun none => unseen ⟨isQuote, none⟩
    have noColon : ':' ≠ char := by
      rintro rfl
      have solid := @blank_apart (spelling.beforeColon key) ':' (by decide)
      exact solid (isBlank ▸ List.mem_cons_self)
    have nameSilent : Silent Quote.single.char key.initial (letters ++ ['\'']) := by
      cases key <;> cases isName <;> decide
    have apart : ¬ '\'' :: key.initial :: (letters ++ ['\'', ':']) <+:
        '\'' :: key.initial :: (letters ++ ['\''] ++ spelling.fromColon values key follow) := by
      rw [fromColon, isBlank]
      intro starts
      have same := (List.cons_prefix_cons.mp (List.cons_prefix_cons.mp starts).2).2
      rw [List.append_assoc, List.prefix_append_right_inj] at same
      exact noColon (List.cons_prefix_cons.mp (List.cons_prefix_cons.mp same).2).1
    rw [quoted, isName]
    exact lookalike_absent single.1 (quote_apart .single key) apart (silent_append nameSilent behind)

theorem output_field (fits : Addressable (spelling.header values)) (key : NpyKey) :
    parseNpyField (spelling.header values) key.name = .ok (if spelling.Seen key then
      some (Text.trimChar '\'' (spelling.fieldText values key)) else none) := by
  by_cases seen : spelling.Seen key
  · obtain ⟨front, follow, isHeader, silent, follows⟩ := key_placed spelling values key
    obtain ⟨letters, isName⟩ := key_name key
    obtain ⟨found, taken, isFound, isTaken, trimmed⟩ := field_cut spelling values key follows
    have split : spelling.header values = front ++ (needle key.name ++ ((spelling.afterColon key).1 ++
        (spelling.written values key ++ ((spelling.behind key).1 ++ follow)))) := by
      rw [isHeader, fromColon, seen.1, seen.2, needle]
      simp [Quote.char]
    have placed : Text.find (needle key.name) (spelling.header values) = some front.byteLength := by
      rw [split, needle_eq key isName]
      exact Text.find_pair (pair_behind_silent (silent .single).1 (quote_apart .single key))
    have after : Text.sliceFrom (spelling.header values) (front.byteLength + Text.byteLength (needle key.name)) =
        some ((spelling.afterColon key).1 ++ (spelling.written values key ++ ((spelling.behind key).1 ++ follow))) := by
      rw [split, ← List.append_assoc, ← Text.byte_length_append]
      exact Text.slice_from_append _ _
    have limits : isizeLimit < usizeLimit := by decide
    have inside : front.byteLength + Text.byteLength (needle key.name) < usizeLimit := by
      unfold Addressable at fits
      rw [split, Text.byte_length_append, Text.byte_length_append] at fits
      omega
    unfold parseNpyField
    rw [placed]
    dsimp only
    rw [usize_add_of_lt inside, ok_bind, sliced_some after, ok_bind, trim_start_written, isFound, ok_bind,
      sliced_some isTaken, ok_bind, trimmed, if_pos seen]
    rfl
  · unfold parseNpyField
    rw [Text.find_absent (needle_absent spelling values seen), if_neg seen]
    rfl

/-- A value that keeps the end of the dictionary. -/
theorem field_last {key : NpyKey} (ended : ¬spelling.Followed key) :
    (Text.trimChar '\'' (spelling.fieldText values key)).getLast? = some '\x7d' := by
  refine trimmed_last ?_ (by decide)
  rw [fieldText, if_neg ended, ← List.append_assoc, ← List.append_assoc, List.getLast?_concat]

/-- Nothing is trimmed from a text in other marks. -/
theorem unquoted_kept {first last : Char} (text : Text) (start : first ≠ '\'') (stop : last ≠ '\'') :
    Text.trimChar '\'' (first :: (text ++ [last])) = first :: (text ++ [last]) := by
  rw [Text.trimChar, List.dropWhile_cons_of_neg (by simpa using start), ← List.cons_append, List.reverse_concat,
    List.dropWhile_cons_of_neg (by simpa using stop), List.reverse_cons, List.reverse_reverse]

theorem parse_shape_written (filled : values.shape ≠ []) (small : ∀ dim ∈ values.shape, dim < usizeLimit) :
    Output.parseShape (Text.trimChar '\'' (spelling.written values .shape)) = .ok values.shape := by
  have opening : '(' ∉ spelling.dims 0 values.shape := dims_apart _ _ _ (by decide) (by decide) (by decide)
  have closing : ')' ∉ spelling.dims 0 values.shape := dims_apart _ _ _ (by decide) (by decide) (by decide)
  have trimmed : Text.trim ('(' :: (spelling.dims 0 values.shape ++ [')'])) =
      '(' :: (spelling.dims 0 values.shape ++ [')']) := by
    have around := trim_around ⟨[], by simp⟩ ⟨[], by simp⟩ (written_ends spelling values .shape).1
      (written_ends spelling values .shape).2
    rwa [List.nil_append, List.append_nil] at around
  have someDims : spelling.dims 0 values.shape ≠ [] := by
    obtain ⟨dim, rest, isShape⟩ := List.exists_cons_of_ne_nil filled
    simp [isShape, dims, decimal_ne_nil]
  rw [written, unquoted_kept _ (by decide) (by decide)]
  unfold Output.parseShape
  dsimp only
  rw [trimmed, trim_parens_around opening closing, ensure, if_pos someDims, ok_bind,
    parse_parts_dims spelling 0 small, okOr, ok_bind, ensure, if_pos filled]
  rfl

/-- What the output side asks of a spelling: the keys it needs, each with its colon and a comma behind the entry. -/
structure Readable : Prop where
  descr : spelling.Seen .descr ∧ spelling.Followed .descr
  dtype : spelling.descrQuote = .single
  /-- The order that is not found is taken for row by row. -/
  fortranOrder : spelling.Seen .fortranOrder → spelling.Followed .fortranOrder
  shape : spelling.Seen .shape ∧ spelling.Followed .shape

theorem followed_text {key : NpyKey} (followed : spelling.Followed key) :
    spelling.fieldText values key = spelling.written values key := by
  rw [fieldText, if_pos followed, List.append_nil]

/-- The fields of a header, if the output side reads it at all. -/
theorem output_fields {float : FloatType} (isFloat : values.descr = float.descr) (rowMajor : values.fortran = false)
    (fits : Addressable (spelling.header values)) (filled : values.shape ≠ [])
    (small : ∀ dim ∈ values.shape, dim < usizeLimit) (readable : spelling.Readable) :
    Output.parseFields (spelling.header values) = .ok (float, values.shape) := by
  have descr := output_field spelling values fits .descr
  have fortran := output_field spelling values fits .fortranOrder
  have dimensions := output_field spelling values fits .shape
  rw [if_pos readable.descr.1, followed_text spelling values readable.descr.2] at descr
  rw [if_pos readable.shape.1, followed_text spelling values readable.shape.2] at dimensions
  change parseNpyField _ "descr" = _ at descr
  change parseNpyField _ "fortran_order" = _ at fortran
  change parseNpyField _ "shape" = _ at dimensions
  have known : floatType (Text.trimChar '\'' (spelling.written values .descr)) = .ok float := by
    rw [written, readable.dtype, isFloat]
    cases float <;> rfl
  have byRows : Text.trim ((if spelling.Seen .fortranOrder then
      some (Text.trimChar '\'' (spelling.fieldText values .fortranOrder)) else none).getD "False".toList) =
        "False".toList := by
    split
    · rename_i seen
      rw [followed_text spelling values (readable.fortranOrder seen), written, rowMajor]
      rfl
    · rfl
  unfold Output.parseFields
  rw [descr, ok_bind, okOr, ok_bind, known, ok_bind, fortran, ok_bind]
  dsimp only
  rw [byRows, ensure, if_pos rfl, ok_bind, dimensions, ok_bind, okOr, ok_bind,
    parse_shape_written spelling values filled small]
  rfl

theorem readable_of_fields (fits : Addressable (spelling.header values)) {fields : FloatType × List Nat}
    (returned : Output.parseFields (spelling.header values) = .ok fields) : spelling.Readable := by
  have cutOff {key : NpyKey} {text : Text}
      (isField : parseNpyField (spelling.header values) key.name = .ok (some text)) : spelling.Seen key ∧
      text = Text.trimChar '\'' (spelling.fieldText values key) := by
    rw [output_field spelling values fits key] at isField
    split at isField
    · rename_i seen
      cases isField
      exact ⟨seen, rfl⟩
    · cases isField
  unfold Output.parseFields at returned
  obtain ⟨descrFound, isDescr, returned⟩ := bind_ok returned
  obtain ⟨descr, someDescr, returned⟩ := bind_ok returned
  obtain ⟨read, known, returned⟩ := bind_ok returned
  obtain ⟨fortranFound, isFortran, returned⟩ := bind_ok returned
  obtain ⟨_, rowMajor, returned⟩ := bind_ok returned
  obtain ⟨shapeFound, isShape, returned⟩ := bind_ok returned
  obtain ⟨dims, someDims, returned⟩ := bind_ok returned
  obtain ⟨_, parsed, -⟩ := bind_ok returned
  rw [ok_or_eq_ok.mp someDescr] at isDescr
  rw [ok_or_eq_ok.mp someDims] at isShape
  rw [ensure_eq_ok] at rowMajor
  obtain ⟨descrSeen, rfl⟩ := @cutOff .descr _ isDescr
  obtain ⟨shapeSeen, rfl⟩ := @cutOff .shape _ isShape
  have isRead := float_type_eq_ok known
  have descrFollowed : spelling.Followed .descr := by
    by_contra ended
    have last := field_last spelling values ended
    rw [isRead] at last
    cases read <;> cases last
  refine ⟨⟨descrSeen, descrFollowed⟩, ?_, ?_, shapeSeen, ?_⟩
  · cases isQuote : spelling.descrQuote with
    | single => rfl
    | double =>
      rw [followed_text spelling values descrFollowed, written, isQuote, Quote.char,
        unquoted_kept _ (by decide) (by decide)] at isRead
      cases read <;> cases isRead
  · intro seen
    by_contra ended
    have found := output_field spelling values fits .fortranOrder
    change parseNpyField _ "fortran_order" = _ at found
    rw [isFortran, if_pos seen] at found
    cases found
    have last : (Text.trim (Text.trimChar '\'' (spelling.fieldText values .fortranOrder))).getLast? =
        some '\x7d' := trimmed_last (field_last spelling values ended) (by decide)
    rw [Option.getD_some] at rowMajor
    rw [rowMajor] at last
    cases last
  · by_contra ended
    exact parse_shape_closed (field_last spelling values ended) parsed

end Field

end HeaderSpelling

end Panoptikon.Embedding
