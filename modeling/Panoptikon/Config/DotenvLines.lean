import Panoptikon.Foundation.Sql.Like
import Panoptikon.Config.Dotenv

/-!
# What the two scanners see on a line

The editor and the parser agree on the name before the equals sign, except
where it is `export` and blanks follow it. A value that the editor writes is
read back by the parser, whatever comment is left after it.
-/

namespace Panoptikon.Config

open Foundation Foundation.Text

def isNameChar (character : Char) : Bool := character.isAlphanum || character == '_'

variable {character : Char}

theorem name_char_code (inName : isNameChar character = true) :
    (48 ≤ character.toNat ∧ character.toNat ≤ 57) ∨ (65 ≤ character.toNat ∧ character.toNat ≤ 90) ∨
      character.toNat = 95 ∨ (97 ≤ character.toNat ∧ character.toNat ≤ 122) := by
  have code (bound : UInt32) : bound ≤ character.val ↔ bound.toNat ≤ character.toNat := UInt32.le_iff_toNat_le
  have below (bound : UInt32) : character.val ≤ bound ↔ character.toNat ≤ bound.toNat := UInt32.le_iff_toNat_le
  unfold isNameChar at inName
  rw [Bool.or_eq_true, beq_iff_eq] at inName
  rcases inName with alphanumeric | rfl
  · have either : character.isAlpha = true ∨ character.isDigit = true := by
      rwa [← Bool.or_eq_true]
    rcases either with alpha | digit
    · rcases Sql.is_alpha_iff.mp alpha with upper | lower
      · have bounds := Sql.is_upper_iff.mp upper
        rw [code, below] at bounds
        exact .inr (.inl bounds)
      · have bounds := Sql.is_lower_iff.mp lower
        rw [code, below] at bounds
        exact .inr (.inr (.inr bounds))
    · exact .inl (Char.isDigit_iff_toNat.mp digit)
  · exact .inr (.inr (.inl rfl))

theorem name_char_solid (inName : isNameChar character = true) : isWhitespace character = false := by
  have code := name_char_code inName
  unfold isWhitespace
  simp only [Bool.or_eq_false_iff, Bool.and_eq_false_iff, decide_eq_false_iff_not]
  omega

variable {name : Text}

theorem env_name_chars (valid : isEnvName name = true) :
    name ≠ [] ∧ ∀ character ∈ name, isNameChar character = true := by
  cases name with
  | nil => cases valid
  | cons first rest =>
    unfold isEnvName at valid
    rw [Bool.and_eq_true, List.all_eq_true] at valid
    refine ⟨List.cons_ne_nil first rest, fun character member => ?_⟩
    rcases List.mem_cons.mp member with rfl | later
    · have start := valid.1
      unfold isNameChar
      rw [Bool.or_eq_true] at start ⊢
      apply start.imp_left
      intro alpha
      change (character.isAlpha || character.isDigit) = true
      rw [alpha, Bool.true_or]
    · exact valid.2 character later

theorem not_in_env_name (valid : isEnvName name = true)
    (other : isNameChar character = false) : character ∉ name := fun member =>
  Bool.false_ne_true (other.symm.trans ((env_name_chars valid).2 character member))

/-- What the editor takes for the name. -/
def editedName (before : Text) : Text :=
  let start := trimStart before
  trimEnd (trimStart ((stripPrefix "export ".toList start).getD start))

/-- What the parser takes for the name. -/
def parsedName (before : Text) : Text :=
  let name := trimEnd (trimStart before)
  ((stripPrefix "export ".toList name).map trimStart).getD name

/-- Before the equals sign stand `export` and blanks. -/
def ExportOnly (before : Text) : Prop :=
  ∃ blank, Blank blank ∧ trimStart before = "export ".toList ++ blank

theorem names_agree (before : Text) :
    (ExportOnly before ∧ editedName before = [] ∧ parsedName before = "export".toList) ∨
      (¬ExportOnly before ∧ parsedName before = editedName before) := by
  cases stripped : stripPrefix "export ".toList (trimStart before) with
  | none =>
    have apart : stripPrefix "export ".toList (trimEnd (trimStart before)) = none := by
      apply strip_prefix_differs
      intro starts
      rcases blank_or_solid (trimStart before) with isBlank | ⟨front, solid, blank, split, isSolid, isBlank⟩
      · rw [trim_end_blank isBlank] at starts
        have short := starts.length_le
        exact absurd short (by decide)
      · rw [split, trim_end_around isSolid, trim_end_blank isBlank] at starts
        obtain ⟨rest, same⟩ := starts
        have longer : trimStart before = "export ".toList ++ (rest ++ blank) := by
          rw [split, ← List.append_assoc, same, List.append_assoc]
          rfl
        rw [longer, strip_prefix_append] at stripped
        cases stripped
    apply Or.inr
    constructor
    · rintro ⟨blank, -, same⟩
      rw [same, strip_prefix_append] at stripped
      cases stripped
    · unfold parsedName editedName
      dsimp only
      rw [stripped, apart, Option.map_none, Option.getD_none, Option.getD_none, trim_start_again]
  | some rest =>
    have start := strip_prefix_eq_some.mp stripped
    rcases blank_or_solid rest with isBlank | ⟨front, solid, blank, split, isSolid, isBlank⟩
    · apply Or.inl
      refine ⟨⟨rest, isBlank, start⟩, ?_, ?_⟩
      · unfold editedName
        dsimp only
        rw [stripped, Option.getD_some, trim_start_blank isBlank]
        rfl
      · have spaced : Blank (' ' :: rest) := by
          intro character member
          rcases List.mem_cons.mp member with rfl | later
          · rfl
          · exact isBlank character later
        have ends : trimEnd (trimStart before) = "export".toList := by
          have shape : "export ".toList ++ rest = "expor".toList ++ 't' :: (' ' :: rest) := rfl
          rw [start, shape, trim_end_around (by decide), trim_end_blank spaced]
          rfl
        unfold parsedName
        dsimp only
        rw [ends]
        rfl
    · apply Or.inr
      constructor
      · rintro ⟨others, isOthers, same⟩
        have both : rest = others := List.append_cancel_left (start.symm.trans same)
        have inBlank := isOthers solid (by rw [← both, split]; simp)
        rw [isSolid] at inBlank
        cases inBlank
      · have ends : trimEnd (trimStart before) = "export ".toList ++ (front ++ [solid]) := by
          rw [start, split, ← List.append_assoc, trim_end_around isSolid, trim_end_blank isBlank, List.append_assoc]
        unfold parsedName editedName
        dsimp only
        rw [ends, strip_prefix_append, stripped, Option.map_some, Option.getD_some, Option.getD_some, split,
          trim_start_around isSolid, trim_start_around isSolid, trim_end_around isSolid, trim_end_blank isBlank]

theorem parsed_env_name (valid : isEnvName name = true) : editedName name = name := by
  obtain ⟨nonempty, chars⟩ := env_name_chars valid
  have start : trimStart name = name := by
    cases name with
    | nil => rfl
    | cons first rest => exact trim_start_solid (name_char_solid (chars first List.mem_cons_self)) rest
  have ends : trimEnd name = name := by
    obtain ⟨front, last, rfl⟩ : ∃ front last, name = front ++ [last] :=
      ⟨name.dropLast, name.getLast nonempty, (List.dropLast_append_getLast nonempty).symm⟩
    exact trim_end_around (name_char_solid (chars last (by simp))) front []
  have apart : stripPrefix "export ".toList name = none := by
    apply strip_prefix_differs
    rintro ⟨rest, rfl⟩
    have absent : ' ' ∉ "export ".toList ++ rest := not_in_env_name valid (by decide)
    exact absent (by simp)
  unfold editedName
  dsimp only
  rw [start, apart, Option.getD_none, start, ends]

variable {before : Text}

theorem equals_found (free : '=' ∉ before) (after : Text) :
    (before ++ '=' :: after).findIdx? (· = '=') = some before.length := by
  have absent : before.findIdx? (· = '=') = none := by
    rw [List.findIdx?_eq_none_iff]
    intro character member
    rw [decide_eq_false_iff_not]
    rintro rfl
    exact free member
  rw [List.findIdx?_append, absent, List.findIdx?_cons]
  simp

theorem equals_splits (line : Text) :
    '=' ∉ line ∨ ∃ before after, line = before ++ '=' :: after ∧ '=' ∉ before := by
  by_cases member : '=' ∈ line
  · obtain ⟨before, after, split, free⟩ := List.eq_append_cons_of_mem member
    exact .inr ⟨before, after, split, free⟩
  · exact .inl member

/-- What the parser keeps of a reading. -/
def LineReading.pair : LineReading → Option (Text × Text)
  | .assigned key value => some (key, value)
  | .skipped | .faulty _ => none

/-- The name and the value that a line assigns. -/
def reads (line : Text) : Option (Text × Text) := (readDotenvLine 0 line).pair

/-- A name that begins with another character than a name may is none, for either scanner. -/
theorem unnamed_start {first : Char} {before rest : Text} (start : trimStart before = first :: rest)
    (other : isNameChar first = false) :
    isEnvName (parsedName before) = false ∧ isEnvName (editedName before) = false := by
  have solid : isWhitespace first = false := by
    obtain ⟨-, -, -, isSolid⟩ := trim_start_splits before
    exact isSolid first rest start
  have unnamed (tail : Text) : isEnvName (first :: tail) = false := by
    rw [Bool.eq_false_iff]
    exact fun valid => not_in_env_name valid other List.mem_cons_self
  have apart (tail : Text) : stripPrefix "export ".toList (first :: tail) = none := by
    apply strip_prefix_differs
    rintro ⟨later, same⟩
    have sameFirst : 'e' = first := (List.cons.inj same).1
    rw [← sameFirst] at other
    cases other
  have ends (tail : Text) : trimEnd (first :: tail) = first :: trimEnd tail := trim_end_around solid [] tail
  unfold parsedName editedName
  dsimp only
  rw [start, ends, apart, apart, Option.map_none, Option.getD_none, Option.getD_none, trim_start_solid solid, ends]
  exact ⟨unnamed _, unnamed _⟩

/-- What follows the equals sign is a value, when what precedes it is a name. -/
theorem reads_of_equals (free : '=' ∉ before) (after : Text) : reads (before ++ '=' :: after) =
      if isEnvName (parsedName before) then
        (parseDotenvValue (trimStart (trimEnd after))).toOption.map fun value => (parsedName before, value)
      else none := by
  obtain ⟨blank, -, split, -⟩ := trim_start_splits before
  have freeStart : '=' ∉ trimStart before := by
    rw [split, List.mem_append, not_or] at free
    exact free.2
  have position := equals_found freeStart (trimEnd after)
  have name : Text.trimEnd (List.take (trimStart before).length (trimStart before ++ '=' :: trimEnd after)) =
      trimEnd (trimStart before) := by rw [List.take_left]
  have value : (trimStart before ++ '=' :: trimEnd after).drop ((trimStart before).length + 1) = trimEnd after := by
    rw [← List.drop_drop, List.drop_left]
    rfl
  have key : ((stripPrefix "export ".toList (trimEnd (trimStart before))).map trimStart).getD
      (trimEnd (trimStart before)) = parsedName before := rfl
  unfold reads readDotenvLine
  dsimp only
  rw [trim_around (by decide), position]
  dsimp only
  rw [name, value, key]
  by_cases skipped : (trimStart before ++ '=' :: trimEnd after).isEmpty = true ∨
      (trimStart before ++ '=' :: trimEnd after).head? = some '#'
  · rw [if_pos skipped]
    cases start : trimStart before with
    | nil =>
      rw [start] at skipped
      simp at skipped
    | cons first rest =>
      rw [start] at skipped
      have sharp : first = '#' := by simpa using skipped
      rw [(unnamed_start start (by rw [sharp]; decide)).1]
      rfl
  · rw [if_neg skipped]
    cases named : isEnvName (parsedName before) with
    | false => rfl
    | true =>
      rw [if_neg (by decide), if_pos rfl]
      cases parseDotenvValue (trimStart (trimEnd after)) <;> rfl

variable {line : Text}

theorem reads_without_equals (free : '=' ∉ line) : reads line = none := by
  have absent : (trim line).findIdx? (· = '=') = none := by
    rw [List.findIdx?_eq_none_iff]
    intro character member
    rw [decide_eq_false_iff_not]
    rintro rfl
    apply free
    unfold trim trimStart at member
    rw [List.mem_reverse] at member
    have inner := (List.dropWhile_suffix _).subset member
    exact (List.dropWhile_suffix _).subset (List.mem_reverse.mp inner)
  unfold reads readDotenvLine
  dsimp only
  rw [absent]
  split_ifs <;> rfl

theorem reading_pair (index : Nat) (line : Text) : (readDotenvLine index line).pair = reads line := by
  unfold reads readDotenvLine
  dsimp only
  split_ifs
  · rfl
  · cases (trim line).findIdx? (· = '=') with
    | none => rfl
    | some equals =>
      dsimp only
      split_ifs
      · rfl
      · cases parseDotenvValue (trimStart ((trim line).drop (equals + 1))) <;> rfl

theorem reads_of_trim {left right : Text} (same : trim left = trim right) : reads left = reads right := by
  unfold reads readDotenvLine
  dsimp only
  rw [same]

theorem comment_from_sharp {quote previous : Option Char} {escaped : Bool} {index start : Nat} {value : Text}
    (found : dotenvCommentFrom quote escaped previous index value = some start) :
    ∃ before after, value = before ++ '#' :: after ∧ start = index + before.length := by
  induction value generalizing quote previous escaped index with
  | nil => cases found
  | cons character rest ih =>
    have later {quote previous : Option Char} {escaped : Bool}
        (inRest : dotenvCommentFrom quote escaped previous (index + 1) rest = some start) :
        ∃ before after, character :: rest = before ++ '#' :: after ∧ start = index + before.length := by
      obtain ⟨before, after, rfl, rfl⟩ := ih inRest
      refine ⟨character :: before, after, rfl, ?_⟩
      rw [List.length_cons]
      omega
    unfold dotenvCommentFrom at found
    split_ifs at found with isEscaped backslash isQuote same opened sharp
    · exact later found
    · exact later found
    · exact later found
    · exact later found
    · exact later found
    · cases found
      exact ⟨[], rest, by rw [sharp.1]; rfl, rfl⟩
    · exact later found

/-- Blanks, then nothing or a comment. -/
def IsSuffix (suffix : Text) : Prop :=
  ∃ blank rest, suffix = blank ++ rest ∧ Blank blank ∧ (rest = [] ∨ rest.head? = some '#')

variable (value : Text)

theorem kept_suffix :
    IsSuffix (value.drop ((dotenvCommentStart value).getD value.length -
      ((value.take ((dotenvCommentStart value).getD value.length)).reverse.takeWhile isWhitespace).length)) := by
  obtain ⟨front, rest, split, length, ends⟩ : ∃ front rest, value = front ++ rest ∧
      (dotenvCommentStart value).getD value.length = front.length ∧ (rest = [] ∨ rest.head? = some '#') := by
    cases found : dotenvCommentStart value with
    | none => exact ⟨value, [], (List.append_nil value).symm, rfl, .inl rfl⟩
    | some start =>
      obtain ⟨before, after, split, isStart⟩ := comment_from_sharp found
      exact ⟨before, '#' :: after, split, by rw [Option.getD_some, isStart, Nat.zero_add], .inr rfl⟩
  have taken : value.take front.length = front := by rw [split, List.take_left]
  have parts : front.reverse.takeWhile isWhitespace ++ front.reverse.dropWhile isWhitespace = front.reverse :=
    List.takeWhile_append_dropWhile
  have halves : front = (front.reverse.dropWhile isWhitespace).reverse ++
      (front.reverse.takeWhile isWhitespace).reverse := by
    rw [← List.reverse_append, parts, List.reverse_reverse]
  refine ⟨(front.reverse.takeWhile isWhitespace).reverse, rest, ?_, ?_, ends⟩
  · have size : front.length - (front.reverse.takeWhile isWhitespace).length =
        (front.reverse.dropWhile isWhitespace).reverse.length := by
      have lengths := congrArg List.length halves
      rw [List.length_append, List.length_reverse, List.length_reverse] at lengths
      rw [List.length_reverse]
      omega
    have whole : value = (front.reverse.dropWhile isWhitespace).reverse ++
        ((front.reverse.takeWhile isWhitespace).reverse ++ rest) := by
      rw [← List.append_assoc, ← halves]
      exact split
    rw [length, taken, size]
    exact (congrArg (List.drop _) whole).trans List.drop_left
  · intro character member
    exact List.mem_takeWhile_imp (List.mem_reverse.mp member)

theorem assignment_of_equals (free : '=' ∉ before) (after : Text) :
    ∃ suffix, IsSuffix suffix ∧ suffix <:+ after ∧ dotenvAssignment (before ++ '=' :: after) =
      if isEnvName (editedName before) then some ⟨editedName before, before.length, suffix⟩ else none := by
  have value : (before ++ '=' :: after).drop (before.length + 1) = after := by
    rw [← List.drop_drop, List.drop_left]
    rfl
  refine ⟨_, kept_suffix after, List.drop_suffix _ _, ?_⟩
  unfold dotenvAssignment
  rw [equals_found free]
  dsimp only [Option.bind_eq_bind, Option.bind_some]
  rw [List.take_left, value]
  have key : trimEnd (trimStart ((stripPrefix "export ".toList (trimStart before)).getD (trimStart before))) =
      editedName before := rfl
  rw [key]
  cases isEnvName (editedName before) <;> rfl

theorem assignment_without_equals (free : '=' ∉ line) : dotenvAssignment line = none := by
  have absent : line.findIdx? (· = '=') = none := by
    rw [List.findIdx?_eq_none_iff]
    intro character member
    rw [decide_eq_false_iff_not]
    rintro rfl
    exact free member
  unfold dotenvAssignment
  rw [absent]
  rfl

/-- The name that the editor finds on a line. -/
def editedKey (line : Text) : Option Text := (dotenvAssignment line).map DotenvAssignment.key

variable {assignment : DotenvAssignment}

theorem edited_key_of_assignment
    (found : dotenvAssignment line = some assignment) : editedKey line = some assignment.key := by
  unfold editedKey
  rw [found, Option.map_some]

theorem edited_key_of_equals (free : '=' ∉ before) (after : Text) : editedKey (before ++ '=' :: after) =
      if isEnvName (editedName before) then some (editedName before) else none := by
  obtain ⟨suffix, -, -, assignment⟩ := assignment_of_equals free after
  unfold editedKey
  rw [assignment]
  cases isEnvName (editedName before) <;> rfl

/-- An assignment that the editor finds is of the name before the equals sign. -/
theorem assignment_splits (found : dotenvAssignment line = some assignment) :
    ∃ before after, line = before ++ '=' :: after ∧ '=' ∉ before ∧ isEnvName (editedName before) = true ∧
      assignment.key = editedName before ∧ assignment.equals = before.length ∧
      IsSuffix assignment.commentSuffix ∧ assignment.commentSuffix <:+ after := by
  rcases equals_splits line with free | ⟨before, after, rfl, free⟩
  · rw [assignment_without_equals free] at found
    cases found
  · obtain ⟨suffix, isSuffix, ends, same⟩ := assignment_of_equals free after
    rw [same] at found
    cases named : isEnvName (editedName before) with
    | false =>
      rw [named] at found
      cases found
    | true =>
      rw [named] at found
      cases found
      exact ⟨before, after, rfl, free, named, rfl, rfl, isSuffix, ends⟩

/-- How the editor writes a character between double quotes. -/
def escape (character : Char) : Text :=
  if character = '\\' then ['\\', '\\']
  else if character = '"' then ['\\', '"']
  else if character = '\n' then ['\\', 'n']
  else if character = '\r' then ['\\', 'r']
  else [character]

theorem encode_eq : encodeDotenvValue value = '"' :: (value.flatMap escape ++ ['"']) := by
  unfold encodeDotenvValue
  dsimp only
  rw [replace_char, replace_char, replace_char, replace_char, List.flatMap_assoc, List.flatMap_assoc, List.flatMap_assoc]
  congr 3
  funext character
  unfold escape
  by_cases backslash : character = '\\'
  · subst backslash
    rfl
  by_cases quote : character = '"'
  · subst quote
    rfl
  by_cases feed : character = '\n'
  · subst feed
    rfl
  by_cases carriage : character = '\r'
  · subst carriage
    rfl
  simp [backslash, quote, feed, carriage]

theorem feed_not_in_encoded : '\n' ∉ encodeDotenvValue value := by
  rw [encode_eq, List.mem_cons, List.mem_append, List.mem_flatMap]
  rintro (same | ⟨character, -, inEscape⟩ | last)
  · cases same
  · unfold escape at inEscape
    split_ifs at inEscape with backslash quote feed carriage
    · revert inEscape
      decide
    · revert inEscape
      decide
    · revert inEscape
      decide
    · revert inEscape
      decide
    · exact feed (List.mem_singleton.mp inEscape).symm
  · revert last
    decide

theorem read_escaped_value (value output rest : Text) :
    readQuotedValue '"' output false (value.flatMap escape ++ rest) =
      readQuotedValue '"' (output ++ value) false rest := by
  induction value generalizing output with
  | nil => simp
  | cons character later ih =>
    have escaped (tail : Text) : readQuotedValue '"' output false (escape character ++ tail) =
        readQuotedValue '"' (output ++ [character]) false tail := by
      unfold escape
      split_ifs with backslash quote feed carriage
      · subst backslash
        rfl
      · subst quote
        rfl
      · subst feed
        rfl
      · subst carriage
        rfl
      · rw [List.singleton_append, readQuotedValue, if_neg (fun both => backslash both.2), if_neg quote]
    rw [List.flatMap_cons, List.append_assoc, escaped, ih, List.append_assoc]
    rfl

theorem parse_encoded {suffix : Text} (isSuffix : IsSuffix suffix) :
    parseDotenvValue (trimStart (trimEnd (encodeDotenvValue value ++ suffix))) = .ok value := by
  have solid : isWhitespace '"' = false := by decide
  have shape : encodeDotenvValue value ++ suffix = ('"' :: value.flatMap escape) ++ '"' :: suffix := by
    rw [encode_eq]
    simp
  have closes : (trimStart (trimEnd suffix)).isEmpty = true ∨ (trimStart (trimEnd suffix)).head? = some '#' := by
    obtain ⟨blank, rest, rfl, isBlank, isEmpty | sharp⟩ := isSuffix
    · rw [isEmpty, List.append_nil, trim_end_blank isBlank]
      exact .inl rfl
    · cases rest with
      | nil => cases sharp
      | cons first others =>
        cases sharp
        rw [trim_end_around (by decide), trim_start_append isBlank, trim_start_solid (by decide)]
        exact .inr rfl
  rw [shape, trim_end_around solid, List.cons_append, trim_start_solid solid]
  unfold parseDotenvValue
  dsimp only
  rw [if_pos (by decide), read_escaped_value, List.nil_append, readQuotedValue, if_neg (by decide), if_pos rfl]
  dsimp only
  rw [if_pos closes]

/-- The variable before the first equals sign, whether or not its value can be read. -/
def nameOf (line : Text) : Option Text :=
  (line.findIdx? (· = '=')).bind fun equals =>
    if isEnvName (parsedName (line.take equals)) then some (parsedName (line.take equals)) else none

theorem name_of_equals (free : '=' ∉ before) (after : Text) :
    nameOf (before ++ '=' :: after) = if isEnvName (parsedName before) then some (parsedName before) else none := by
  unfold nameOf
  rw [equals_found free, Option.bind_some, List.take_left]

/-- `export`, blanks and an equals sign. -/
def ExportLine (line : Text) : Prop :=
  ∃ before after, line = before ++ '=' :: after ∧ '=' ∉ before ∧ ExportOnly before

theorem named_if_edited {line key : Text} (found : editedKey line = some key) : nameOf line = some key := by
  obtain ⟨assignment, isAssignment, rfl⟩ := Option.map_eq_some_iff.mp found
  obtain ⟨before, after, rfl, free, named, isKey, -⟩ := assignment_splits isAssignment
  rcases names_agree before with ⟨-, isNil, -⟩ | ⟨-, same⟩
  · rw [isNil] at named
    cases named
  · rw [name_of_equals free, isKey, same, named]
    rfl

theorem named_if_read {line key value : Text} (isRead : reads line = some (key, value)) : nameOf line = some key := by
  rcases equals_splits line with free | ⟨before, after, rfl, free⟩
  · rw [reads_without_equals free] at isRead
    cases isRead
  · rw [reads_of_equals free] at isRead
    rw [name_of_equals free]
    cases named : isEnvName (parsedName before) with
    | false =>
      rw [named] at isRead
      cases isRead
    | true =>
      rw [named, if_pos rfl] at isRead
      obtain ⟨found, -, same⟩ := Option.map_eq_some_iff.mp isRead
      cases same
      rfl

/-- Where the editor finds no name and the parser reads one, it is `export`. -/
theorem hidden_is_export {line key value : Text} (isRead : reads line = some (key, value))
    (unseen : editedKey line = none) : key = "export".toList ∧ ExportLine line := by
  have isName := named_if_read isRead
  rcases equals_splits line with free | ⟨before, after, rfl, free⟩
  · rw [reads_without_equals free] at isRead
    cases isRead
  · rw [edited_key_of_equals free] at unseen
    rw [name_of_equals free] at isName
    rcases names_agree before with ⟨exportOnly, -, isExport⟩ | ⟨-, same⟩
    · rw [isExport, if_pos (by decide)] at isName
      exact ⟨(Option.some.inj isName).symm, before, after, rfl, free, exportOnly⟩
    · rw [same] at isName
      rw [unseen] at isName
      cases isName

theorem export_unseen (isExport : ExportLine line) : editedKey line = none := by
  obtain ⟨before, after, rfl, free, exportOnly⟩ := isExport
  rw [edited_key_of_equals free]
  rcases names_agree before with ⟨-, isNil, -⟩ | ⟨isNot, -⟩
  · rw [isNil]
    rfl
  · exact absurd exportOnly isNot

/-- A rewritten line assigns the value, and the editor finds the name on it. -/
theorem reads_rewritten (found : dotenvAssignment line = some assignment) :
    reads (DotenvDocument.rewrite line assignment value) = some (assignment.key, value) ∧
      editedKey (DotenvDocument.rewrite line assignment value) = some assignment.key := by
  obtain ⟨before, after, rfl, free, named, isKey, isEquals, isSuffix, -⟩ := assignment_splits found
  have shape : DotenvDocument.rewrite (before ++ '=' :: after) assignment value =
      before ++ '=' :: (encodeDotenvValue value ++ assignment.commentSuffix) := by
    have front : (before ++ '=' :: after).take (before.length + 1) = before ++ ['='] := by
      have longer : before.length + 1 = (before ++ ['=']).length := by simp
      have split : before ++ '=' :: after = before ++ ['='] ++ after := by simp
      rw [longer, split, List.take_left]
    unfold DotenvDocument.rewrite
    rw [isEquals, front, List.append_assoc, List.append_assoc]
    rfl
  have same : parsedName before = editedName before := by
    rcases names_agree before with ⟨-, isNil, -⟩ | ⟨-, same⟩
    · rw [isNil] at named
      cases named
    · exact same
  rw [shape, reads_of_equals free, edited_key_of_equals free, same, named, parse_encoded value isSuffix, isKey]
  exact ⟨rfl, rfl⟩

theorem feed_not_in_rewritten (found : dotenvAssignment line = some assignment) (clean : '\n' ∉ line) :
    '\n' ∉ DotenvDocument.rewrite line assignment value := by
  obtain ⟨before, after, rfl, -, -, -, -, -, ends⟩ := assignment_splits found
  unfold DotenvDocument.rewrite
  rw [List.mem_append, List.mem_append]
  rintro ((inFront | encoded) | inSuffix)
  · exact clean (List.mem_of_mem_take inFront)
  · exact feed_not_in_encoded value encoded
  · exact clean (List.mem_append_right before (List.mem_cons_of_mem '=' (ends.subset inSuffix)))

theorem reads_appended {key : Text} (valid : isEnvName key = true) :
    reads (key ++ '=' :: encodeDotenvValue value) = some (key, value) ∧
      editedKey (key ++ '=' :: encodeDotenvValue value) = some key := by
  have free : '=' ∉ key := not_in_env_name valid (by decide)
  have bare : IsSuffix [] := ⟨[], [], rfl, List.forall_mem_nil _, .inl rfl⟩
  have edited := parsed_env_name valid
  have same : parsedName key = key := by
    rcases names_agree key with ⟨-, isNil, -⟩ | ⟨-, same⟩
    · rw [edited] at isNil
      exact absurd isNil (env_name_chars valid).1
    · rw [same, edited]
  have value_ := parse_encoded value bare
  rw [List.append_nil] at value_
  rw [reads_of_equals free, edited_key_of_equals free, same, edited, valid, value_]
  exact ⟨rfl, rfl⟩

theorem marked_unnamed (line : Text) : reads (byteOrderMark :: line) = none ∧
    editedKey (byteOrderMark :: line) = none := by
  have other : isNameChar byteOrderMark = false := by decide
  have solid : isWhitespace byteOrderMark = false := by decide
  rcases equals_splits (byteOrderMark :: line) with free | ⟨before, after, same, free⟩
  · rw [reads_without_equals free, editedKey, assignment_without_equals free]
    exact ⟨rfl, rfl⟩
  · cases before with
    | nil =>
      cases (List.cons.inj same).1
    | cons first rest =>
      have isMark : byteOrderMark = first := (List.cons.inj same).1
      have start : trimStart (first :: rest) = byteOrderMark :: rest := by
        rw [← isMark]
        exact trim_start_solid solid rest
      obtain ⟨unparsed, unedited⟩ := unnamed_start start other
      rw [same, reads_of_equals free, edited_key_of_equals free, unparsed, unedited]
      exact ⟨rfl, rfl⟩

end Panoptikon.Config
