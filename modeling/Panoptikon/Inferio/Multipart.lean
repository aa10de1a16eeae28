import Panoptikon.Inferio.Response

/-!
# The parts of a multipart body

A body falls apart into the parts it was put together from when no part holds the
boundary, and the header of a part gives back its index.
-/

namespace Panoptikon.Inferio

open Foundation

def typeLine : Text := "Content-Type: application/octet-stream".toList

def dispositionStart : Text := "Content-Disposition: attachment; filename=".toList

def outputName (index : Nat) : Text := "output".toList ++ Nat.toDigits 10 index ++ ".bin".toList

theorem output_name_eq (index : Nat) :
    outputName index = "output".toList ++ Nat.toDigits 10 index ++ ".bin".toList := rfl

def dispositionLine (index : Nat) : Text := dispositionStart ++ '"' :: (outputName index ++ ['"'])

def partHeader (index : Nat) : Text :=
  '\r' :: '\n' :: (typeLine ++ '\r' :: '\n' :: dispositionLine index)

theorem part_head_eq (index : Nat) : partHead index = Text.utf8 (partHeader index) ++ [13, 10, 13, 10] := by
  have ended : ([13, 10, 13, 10] : List UInt8) = Text.utf8 "\r\n\r\n".toList := by decide
  rw [ended, ← Text.utf8_append]
  unfold partHead partHeader dispositionLine
  rw [output_name_eq]
  refine congrArg Text.utf8 ?_
  have start : "\r\nContent-Type: application/octet-stream\r\n".toList =
      '\r' :: '\n' :: (typeLine ++ ['\r', '\n']) := by decide
  have named : "Content-Disposition: attachment; filename=\"output".toList =
      dispositionStart ++ '"' :: "output".toList := by decide
  have last : ".bin\"\r\n\r\n".toList = ".bin".toList ++ '"' :: "\r\n\r\n".toList := by decide
  rw [start, named, last]
  simp only [List.append_assoc, List.cons_append, List.nil_append]

theorem digit_bytes (number : Nat) :
    ∀ byte ∈ Text.utf8 (Nat.toDigits 10 number), 48 ≤ byte.toNat ∧ byte.toNat ≤ 57 := by
  intro byte member
  obtain ⟨char, isDigit, encoded⟩ := List.mem_flatMap.mp member
  have digit := Nat.isDigit_of_mem_toDigits (by decide) (by decide) isDigit
  obtain ⟨low, high⟩ : 48 ≤ char.val.toNat ∧ char.val.toNat ≤ 57 := by
    simpa [Char.isDigit, UInt32.le_iff_toNat_le] using digit
  have short : char.val.toNat ≤ 0x7f := by omega
  simp only [String.utf8EncodeChar, if_pos short, List.mem_singleton] at encoded
  rw [encoded, UInt8.toNat_ofNat']
  omega

/-- A byte that is no digit and stands in neither fixed part of the name is not in it. -/
theorem output_name_free {byte : UInt8} (index : Nat) (noDigit : byte.toNat < 48)
    (absent : byte ∉ Text.utf8 "output".toList ∧ byte ∉ Text.utf8 ".bin".toList) :
    byte ∉ Text.utf8 (outputName index) := by
  intro member
  rw [output_name_eq, Text.utf8_append, Text.utf8_append, List.mem_append, List.mem_append] at member
  rcases member with (before | digits) | after
  · exact absent.1 before
  · have := (digit_bytes index byte digits).1
    omega
  · exact absent.2 after

theorem utf8_cons (char : Char) (text : Text) :
    Text.utf8 (char :: text) = String.utf8EncodeChar char ++ Text.utf8 text := rfl

theorem utf8_part_header (index : Nat) :
    Text.utf8 (partHeader index) = 13 :: 10 :: (Text.utf8 typeLine ++
      13 :: 10 :: (Text.utf8 dispositionStart ++ 34 :: (Text.utf8 (outputName index) ++ [34]))) := by
  have return_byte : String.utf8EncodeChar '\r' = [13] := by decide
  have feed_byte : String.utf8EncodeChar '\n' = [10] := by decide
  have quote_byte : String.utf8EncodeChar '"' = [34] := by decide
  have quoted : Text.utf8 ['"'] = [34] := by decide
  simp only [partHeader, dispositionLine, utf8_cons, Text.utf8_append, return_byte, feed_byte,
    quote_byte, quoted, List.cons_append, List.nil_append]

theorem marker_ne_nil : marker boundary ≠ [] := by decide

theorem marker_lacks : (34 : UInt8) ∉ marker boundary ∧ (13 : UInt8) ∉ marker boundary ∧
    (10 : UInt8) ∉ marker boundary := by decide

theorem free_of_lacks {bytes : List UInt8} (absent : (45 : UInt8) ∉ bytes) : ¬marker boundary <:+: bytes := by
  intro held
  have first : (45 : UInt8) ∈ marker boundary := by decide
  exact absent (held.subset first)

variable {content : List UInt8}

theorem part_free (index : Nat) (free : ¬marker boundary <:+: content) :
    ¬marker boundary <:+: partHead index ++ content ++ [13] := by
  obtain ⟨noQuote, noReturn, noFeed⟩ := marker_lacks
  have named := free_of_lacks (output_name_free index (by decide : (45 : UInt8).toNat < 48) (by decide))
  have start : ¬marker boundary <:+: (13 :: 10 :: (Text.utf8 typeLine ++
      13 :: 10 :: Text.utf8 dispositionStart)) := by decide +kernel
  have empty : ¬marker boundary <:+: [] := by decide
  have shape : partHead index ++ content ++ [13] =
      (13 :: 10 :: (Text.utf8 typeLine ++ 13 :: 10 :: Text.utf8 dispositionStart)) ++
        34 :: (Text.utf8 (outputName index) ++ 34 :: ([] ++ 13 :: ([] ++ 10 :: ([] ++ 13 ::
          ([] ++ 10 :: (content ++ 13 :: [])))))) := by
    rw [part_head_eq, utf8_part_header]
    simp only [List.append_assoc, List.cons_append, List.nil_append]
  rw [shape, infix_separated_iff noQuote, infix_separated_iff noQuote, infix_separated_iff noReturn,
    infix_separated_iff noFeed, infix_separated_iff noReturn, infix_separated_iff noFeed,
    infix_separated_iff noReturn]
  simp only [start, named, empty, free, or_self, not_false_eq_true]

/-- The parts as they stand between the markers. -/
def partsFrom : Nat → List (List UInt8) → List (List UInt8)
  | _, [] => []
  | index, content :: rest => (partHead index ++ content ++ lineEnd) :: partsFrom (index + 1) rest

def closing : List UInt8 := Text.utf8 "--\r\n".toList

variable {contents : List (List UInt8)}

section

variable (free : ∀ content ∈ contents, ¬marker boundary <:+: content)

include free

theorem encoded_parts_split (index : Nat) :
    ∃ rest, encodeParts index contents ++ (marker boundary ++ closing) = marker boundary ++ rest ∧
      splitByMarker (marker boundary) rest = partsFrom index contents ++ [closing] := by
  induction contents generalizing index with
  | nil => exact ⟨closing, rfl, split_by_marker_last marker_ne_nil (by decide)⟩
  | cons content contents ih =>
    rw [List.forall_mem_cons] at free
    obtain ⟨rest, same, pieces⟩ := ih free.2 (index + 1)
    refine ⟨(partHead index ++ content ++ [13]) ++ 10 :: (marker boundary ++ rest), ?_, ?_⟩
    · simp only [encodeParts, List.append_assoc, same]
      rfl
    · rw [split_by_marker_piece marker_ne_nil rest marker_lacks.2.2 (part_free index free.1), pieces]
      simp [partsFrom, lineEnd]

theorem split_encoded :
    splitByMarker (marker boundary) (encodeParts 0 contents ++ (marker boundary ++ closing)) =
      [] :: (partsFrom 0 contents ++ [closing]) := by
  obtain ⟨rest, same, pieces⟩ := encoded_parts_split free 0
  have found := @find_subslice_here _ _ (marker boundary) rest
  rw [same, split_by_marker_found marker_ne_nil found, List.take_zero, Nat.zero_add, List.drop_left,
    pieces]

end

theorem find_past_line {line : List UInt8} (rest : List UInt8) (nonempty : line ≠ [])
    (noReturn : (13 : UInt8) ∉ line) : findSubslice [13, 10, 13, 10] (13 :: 10 :: (line ++ rest)) =
      (findSubslice [13, 10, 13, 10] rest).map (· + (line.length + 2)) := by
  cases line with
  | nil => exact absurd rfl nonempty
  | cons first line =>
    have other : (13 : UInt8) ≠ first := fun same => noReturn (List.mem_cons.mpr (Or.inl same))
    have differs : ¬[13, 10, 13, 10] <+: 13 :: 10 :: (first :: line ++ rest) := by
      intro starts
      simp only [List.cons_append, List.cons_prefix_cons, other] at starts
      exact absurd starts.2.2.1 id
    have differsFeed : ¬[13, 10, 13, 10] <+: 10 :: (first :: line ++ rest) := by
      intro starts
      exact absurd (List.cons_prefix_cons.mp starts).1 (by decide)
    rw [find_subslice_skip differs, find_subslice_skip differsFeed, find_subslice_past rest noReturn,
      Option.map_map, Option.map_map]
    rfl

theorem find_header_end (index : Nat) (content : List UInt8) :
    findSubslice [13, 10, 13, 10] (partHead index ++ content) =
      some (Text.utf8 (partHeader index)).length := by
  have noReturnName := output_name_free index (by decide : (13 : UInt8).toNat < 48) (by decide)
  have noReturnStart : (13 : UInt8) ∉ Text.utf8 dispositionStart := by decide
  have noReturn : (13 : UInt8) ∉ Text.utf8 typeLine := by decide
  have nonempty : Text.utf8 typeLine ≠ [] := by decide
  rw [part_head_eq, utf8_part_header]
  generalize Text.utf8 (outputName index) = name at noReturnName ⊢
  generalize Text.utf8 dispositionStart = start at noReturnStart ⊢
  generalize Text.utf8 typeLine = line at noReturn nonempty ⊢
  have noReturnLine : (13 : UInt8) ∉ start ++ 34 :: (name ++ [34]) := by
    simp [noReturnStart, noReturnName]
  have shape : 13 :: 10 :: (line ++ 13 :: 10 :: (start ++ 34 :: (name ++ [34]))) ++
      [13, 10, 13, 10] ++ content = 13 :: 10 :: (line ++ 13 :: 10 ::
        (start ++ 34 :: (name ++ [34]) ++ ([13, 10, 13, 10] ++ content))) := by
    simp
  rw [shape, find_past_line _ nonempty noReturn, find_past_line _ (by simp) noReturnLine,
    find_subslice_here]
  simp only [Option.map_some, List.length_cons, List.length_append]
  congr 1
  omega

theorem split_headers_part (index : Nat) (content : List UInt8) :
    splitHeaders (partHead index ++ content) = some (Text.utf8 (partHeader index), content) := by
  rw [splitHeaders, find_header_end, Option.map_some, part_head_eq]
  generalize Text.utf8 (partHeader index) = header
  rw [List.append_assoc, List.take_left, ← List.drop_drop, List.drop_left]
  simp only [List.cons_append, List.nil_append, List.drop_succ_cons, List.drop_zero]

theorem trim_solid {first last : Char} (middle : Text) (opened : Text.isWhitespace first = false)
    (closed : Text.isWhitespace last = false) :
    Text.trim (first :: (middle ++ [last])) = first :: (middle ++ [last]) := by
  have backwards : (first :: (middle ++ [last])).reverse = last :: (middle.reverse ++ [first]) := by simp
  unfold Text.trim Text.trimStart
  rw [List.dropWhile_cons_of_neg (by simp [opened]), backwards,
    List.dropWhile_cons_of_neg (by simp [closed]), ← backwards, List.reverse_reverse]

/-- A character that is no digit and stands in neither fixed part of the name is not in it. -/
theorem output_name_lacks {char : Char} (index : Nat) (noDigit : char.isDigit = false)
    (absent : char ∉ "output".toList ∧ char ∉ ".bin".toList) : char ∉ outputName index := by
  intro member
  rw [output_name_eq, List.mem_append, List.mem_append] at member
  rcases member with (before | digits) | after
  · exact absent.1 before
  · have digit := Nat.isDigit_of_mem_toDigits (by decide) (by decide) digits
    exact absurd (digit.symm.trans noDigit) (by decide)
  · exact absent.2 after

theorem trim_blank {blank : Char} (text : Text) (isBlank : Text.isWhitespace blank = true) :
    Text.trim (blank :: text) = Text.trim text := by
  unfold Text.trim Text.trimStart
  rw [List.dropWhile_cons_of_pos isBlank]

section

variable (index : Nat)

include index

theorem disposition_line_trim : Text.trim (dispositionLine index) = dispositionLine index := by
  have opened : dispositionStart = 'C' :: dispositionStart.tail := by decide
  have shape : dispositionLine index =
      'C' :: (dispositionStart.tail ++ '"' :: outputName index ++ ['"']) := by
    rw [dispositionLine, opened]
    simp only [List.tail_cons, List.cons_append, List.append_assoc]
  rw [shape]
  exact trim_solid _ (by decide) (by decide)

theorem trim_char_quoted :
    Text.trimChar '"' ('"' :: (outputName index ++ ['"'])) = outputName index := by
  have first : outputName index = 'o' :: (outputName index).tail := rfl
  have last : (outputName index).reverse = 'n' :: (outputName index).reverse.tail := by
    simp [output_name_eq]
  have opened : ('"' :: (outputName index ++ ['"'])).dropWhile (· = '"') = outputName index ++ ['"'] := by
    rw [List.dropWhile_cons_of_pos (by decide), first]
    exact List.dropWhile_cons_of_neg (by decide)
  have closed : (outputName index ++ ['"']).reverse.dropWhile (· = '"') = (outputName index).reverse := by
    rw [List.reverse_append, List.reverse_singleton, List.singleton_append,
      List.dropWhile_cons_of_pos (by decide), last]
    exact List.dropWhile_cons_of_neg (by decide)
  rw [Text.trimChar, opened, closed, List.reverse_reverse]

theorem filename_of_disposition :
    filenameOf (dispositionLine index) = some (outputName index) := by
  have noSemicolon := output_name_lacks index (by decide : Char.isDigit ';' = false) (by decide)
  have starts : "content-disposition".toList.isPrefixOf
      (Text.toAsciiLowercase (dispositionLine index)) = true := by
    rw [List.isPrefixOf_iff_prefix, dispositionLine, Text.toAsciiLowercase, List.map_append]
    exact List.IsPrefix.trans (by decide) (List.prefix_append _ _)
  have shape : dispositionLine index = "Content-Disposition: attachment".toList ++ ';' ::
      (" filename=".toList ++ '"' :: (outputName index ++ ['"'])) := by
    have parts : dispositionStart =
        "Content-Disposition: attachment".toList ++ ';' :: " filename=".toList := by decide
    rw [dispositionLine, parts, List.append_assoc, List.cons_append]
  have secondFree : ';' ∉ " filename=".toList ++ '"' :: (outputName index ++ ['"']) := by
    simp [noSemicolon]
  have secondTrim : Text.trim (" filename=".toList ++ '"' :: (outputName index ++ ['"'])) =
      "filename=".toList ++ '"' :: (outputName index ++ ['"']) := by
    have blank : " filename=".toList = ' ' :: "filename=".toList := by decide
    have opened : "filename=".toList = 'f' :: "ilename=".toList := by decide
    have shape : "filename=".toList ++ '"' :: (outputName index ++ ['"']) =
        'f' :: ("ilename=".toList ++ '"' :: outputName index ++ ['"']) := by
      rw [opened]
      simp only [List.cons_append, List.append_assoc]
    rw [blank, List.cons_append, trim_blank _ (by decide), shape]
    exact trim_solid _ (by decide) (by decide)
  rw [filenameOf, if_pos starts, shape, List.splitOn_append_cons_self_of_not_mem (by decide),
    List.splitOn_eq_singleton secondFree, List.findSome?_cons, List.findSome?_cons]
  have firstPart : (Text.stripPrefix "filename=".toList
      (Text.trim "Content-Disposition: attachment".toList)).map (Text.trimChar '"') = none := by decide
  rw [firstPart, secondTrim, Text.strip_prefix_append, Option.map_some, trim_char_quoted]

theorem lines_part_header :
    Text.lines (partHeader index) = [[], typeLine, dispositionLine index] := by
  have noFeed : '\n' ∉ dispositionLine index := by
    have named := output_name_lacks index (by decide : Char.isDigit '\n' = false) (by decide)
    have start : '\n' ∉ dispositionStart := by decide
    have quote : '\n' ≠ '"' := by decide
    simp only [dispositionLine, List.mem_append, List.mem_cons, List.not_mem_nil, start, named, quote,
      or_self, not_false_eq_true]
  have shape : partHeader index = ['\r'] ++ '\n' :: ((typeLine ++ ['\r']) ++ '\n' :: dispositionLine index) := by
    simp [partHeader]
  have split : (partHeader index).splitOn '\n' = [['\r'], typeLine ++ ['\r'], dispositionLine index] := by
    rw [shape, List.splitOn_append_cons_self_of_not_mem (by decide),
      List.splitOn_append_cons_self_of_not_mem (by decide), List.splitOn_eq_singleton noFeed]
  have nonempty : (dispositionLine index).isEmpty = false := by simp [dispositionLine]
  have first : Text.stripReturn ['\r'] = [] := by decide
  have second : Text.stripReturn (typeLine ++ ['\r']) = typeLine := by decide
  simp only [Text.lines, split, List.dropLast, List.map_cons, List.map_nil, first, second,
    List.getLast?_cons_cons, List.getLast?_singleton, Option.toList_some, List.filter_cons, nonempty,
    Bool.not_false, List.filter_nil, if_true, List.cons_append, List.nil_append]

theorem extract_filename_part :
    extractFilename (Text.utf8 (partHeader index)) = some (outputName index) := by
  have first : filenameOf (Text.trim []) = none := by decide
  have second : filenameOf (Text.trim typeLine) = none := by decide
  rw [extractFilename, Text.from_utf8_utf8, Option.bind_some, lines_part_header, List.findSome?_cons,
    first, List.findSome?_cons, second, List.findSome?_cons, disposition_line_trim,
    filename_of_disposition]

/-- The index of a part is the number in its name, unless no `usize` holds it. -/
theorem output_index_name :
    outputIndex (outputName index) = if index < 2 ^ 64 then some index else none := by
  have digits : ∀ char ∈ Nat.toDigits 10 index, char.isDigit = true := fun char member =>
    Nat.isDigit_of_mem_toDigits (by decide) (by decide) member
  have start : ¬"output".toList <+: Nat.toDigits 10 index ++ ".bin".toList := by
    intro starts
    cases chars : Nat.toDigits 10 index with
    | nil => exact absurd chars Nat.toDigits_ne_nil
    | cons first rest =>
      rw [chars] at starts digits
      have same : 'o' = first := (List.cons_prefix_cons.mp starts).1
      exact absurd (digits first List.mem_cons_self) (by rw [← same]; decide)
  have finish : ¬".bin".toList <:+ Nat.toDigits 10 index := by
    intro ends
    have dot : '.' ∈ ".bin".toList := by decide
    exact absurd (digits '.' (ends.subset dot)) (by decide)
  have trimmed : Text.trimStartMatches "output".toList (outputName index) =
      Nat.toDigits 10 index ++ ".bin".toList := by
    rw [output_name_eq, List.append_assoc]
    exact Text.trim_start_once (by decide) start
  have digitsLeft : Text.trimEndMatches ".bin".toList (Nat.toDigits 10 index ++ ".bin".toList) =
      Nat.toDigits 10 index := Text.trim_end_once (by decide) finish
  unfold outputIndex
  rw [trimmed, digitsLeft]
  exact Text.parse_usize_digits index

end

theorem drop_line_ends_prefix (bytes : List UInt8) : ¬[10, 13] <+: dropLineEnds bytes := by
  fun_induction dropLineEnds bytes with
  | case1 rest ih => exact ih
  | case2 bytes other =>
    rintro ⟨rest, same⟩
    exact other rest same.symm

theorem strip_line_ends_suffix (data : List UInt8) : ¬lineEnd <:+ stripLineEnds data := by
  intro ends
  rw [← List.reverse_prefix, stripLineEnds, List.reverse_reverse] at ends
  exact drop_line_ends_prefix data.reverse ends

theorem strip_line_ends_once (noEnd : ¬lineEnd <:+ content) : stripLineEnds (content ++ lineEnd) = content := by
  have kept : dropLineEnds content.reverse = content.reverse := by
    rw [← List.reverse_prefix] at noEnd
    unfold dropLineEnds
    split
    · rename_i rest same
      exact absurd ⟨rest, same.symm⟩ noEnd
    · rfl
  rw [stripLineEnds, List.reverse_append]
  change (dropLineEnds content.reverse).reverse = content
  rw [kept, List.reverse_reverse]

theorem store_output_next (outputs : List (List UInt8)) (data : List UInt8) :
    storeOutput outputs (if outputs.length < 2 ^ 64 then some outputs.length else none) data =
      outputs ++ [data] := by
  split
  · simp [storeOutput]
  · rfl

theorem parse_part_closing (outputs : List (List UInt8)) : parsePart outputs closing = outputs := by
  rfl

variable {outputs : List (List UInt8)}

theorem parse_part_next (noEnd : ¬lineEnd <:+ content) :
    parsePart outputs (partHead outputs.length ++ content ++ lineEnd) = outputs ++ [content] := by
  have ordinary : ∀ rest : List UInt8,
      ((13 :: rest).isEmpty || 13 :: rest == Text.utf8 "--\r\n".toList ||
        13 :: rest == Text.utf8 "--".toList) = false := by
    intro rest
    have closed : Text.utf8 "--\r\n".toList = [45, 45, 13, 10] := by decide
    have dashes : Text.utf8 "--".toList = [45, 45] := by decide
    rw [closed, dashes]
    rfl
  obtain ⟨rest, opened⟩ : ∃ rest, partHead outputs.length ++ content ++ lineEnd = 13 :: rest := by
    rw [part_head_eq, utf8_part_header]
    exact ⟨_, rfl⟩
  rw [parsePart, opened, ordinary rest, ← opened, List.append_assoc, split_headers_part]
  simp only [extract_filename_part, output_index_name, strip_line_ends_once noEnd, store_output_next]
  rfl

theorem parse_parts {contents outputs : List (List UInt8)} (noEnd : ∀ content ∈ contents, ¬lineEnd <:+ content) :
    (partsFrom outputs.length contents).foldl parsePart outputs = outputs ++ contents := by
  induction contents generalizing outputs with
  | nil => exact (List.append_nil outputs).symm
  | cons content contents ih =>
    rw [List.forall_mem_cons] at noEnd
    have later := @ih (outputs ++ [content]) noEnd.2
    rw [List.length_append, List.length_singleton, List.append_assoc, List.singleton_append] at later
    rw [partsFrom, List.foldl_cons, parse_part_next noEnd.1, later]

/-- Bytes that hold no boundary and end in no line end come back as they were. -/
theorem parse_multipart_encoded (free : ∀ content ∈ contents, ¬marker boundary <:+: content)
    (noEnd : ∀ content ∈ contents, ¬lineEnd <:+ content) :
    parseMultipartOutputs (encodeParts 0 contents ++ (marker boundary ++ closing)) boundary = contents := by
  have parts := @parse_parts contents [] noEnd
  rw [List.length_nil, List.nil_append] at parts
  have opened : parsePart [] [] = [] := rfl
  rw [parseMultipartOutputs, split_encoded free, List.foldl_cons, opened, List.foldl_append, parts]
  exact parse_part_closing contents

/-- What a part without the boundary can leave as an output. -/
def Readable (content : List UInt8) : Prop := ¬marker boundary <:+: content ∧ ¬lineEnd <:+ content

theorem readable_nil : Readable [] := by
  constructor <;> decide

theorem readable_strip {part content : List UInt8} (free : ¬marker boundary <:+: part)
    (inside : content <:+: part) : Readable (stripLineEnds content) := by
  refine ⟨fun held => free (List.IsInfix.trans ?_ inside), strip_line_ends_suffix content⟩
  have kept : ∀ bytes, dropLineEnds bytes <:+ bytes := by
    intro bytes
    fun_induction dropLineEnds bytes with
    | case1 rest ih => exact ih.trans ⟨[10, 13], rfl⟩
    | case2 bytes other => exact List.suffix_refl bytes
  have whole : stripLineEnds content <+: content := by
    rw [stripLineEnds, ← List.reverse_suffix, List.reverse_reverse]
    exact kept content.reverse
  exact held.trans whole.isInfix

theorem store_output_readable {index : Option Nat} {data : List UInt8}
    (readable : ∀ output ∈ outputs, Readable output) (isReadable : Readable data) :
    ∀ output ∈ storeOutput outputs index data, Readable output := by
  intro output member
  cases index with
  | none =>
    rcases List.mem_append.mp member with before | last
    · exact readable output before
    · rw [List.mem_singleton.mp last]
      exact isReadable
  | some index =>
    rcases List.mem_or_eq_of_mem_set member with kept | rfl
    · split at kept
      · rcases List.mem_append.mp kept with before | filler
        · exact readable output before
        · rw [List.eq_of_mem_replicate filler]
          exact readable_nil
      · exact readable output kept
    · exact isReadable

theorem parse_part_readable {part : List UInt8}
    (free : ¬marker boundary <:+: part) (readable : ∀ output ∈ outputs, Readable output) :
    ∀ output ∈ parsePart outputs part, Readable output := by
  unfold parsePart
  split
  · exact readable
  · split
    · exact readable
    · rename_i headers content split
      split
      · exact readable
      · obtain ⟨position, -, same⟩ := Option.map_eq_some_iff.mp split
        have inside : content <:+: part := by
          rw [← (Prod.mk.inj same).2]
          exact (List.drop_suffix _ part).isInfix
        exact store_output_readable readable (readable_strip free inside)

/-- Whatever the body, no output holds the boundary or ends in a line end. -/
theorem parse_multipart_readable (body : List UInt8) :
    ∀ output ∈ parseMultipartOutputs body boundary, Readable output := by
  have parts : ∀ (parts : List (List UInt8)) (outputs : List (List UInt8)),
      (∀ part ∈ parts, ¬marker boundary <:+: part) → (∀ output ∈ outputs, Readable output) →
      ∀ output ∈ parts.foldl parsePart outputs, Readable output := by
    intro parts
    induction parts with
    | nil => exact fun _ _ readable => readable
    | cons part parts ih =>
      intro outputs free readable
      rw [List.forall_mem_cons] at free
      exact ih _ free.2 (parse_part_readable free.1 readable)
  exact parts _ [] (split_by_marker_free marker_ne_nil body)
    nofun

end Panoptikon.Inferio
