import Mathlib.Data.List.Infix
import Mathlib.Data.List.Nodup
import Panoptikon.Embedding.Safety
import Panoptikon.Foundation.NumberedNames

/-!
# Headers in every spelling

The header of an array is a dictionary of three keys in any order, with quotes of
either kind, blanks between its parts and a comma behind its last entry or none.
The search side reads every spelling.
-/

namespace Panoptikon.Embedding

open Foundation

def decimal (number : Nat) : Text := (toString number).toList

theorem decimal_digits (number : Nat) : ∀ digit ∈ decimal number, digit.isDigit = true :=
  (digits_of_nat number).2

theorem decimal_ne_nil (number : Nat) : decimal number ≠ [] := (digits_of_nat number).1

theorem of_digit_chars_ge (digits : Text) (start : Nat) : start ≤ Nat.ofDigitChars 10 digits start := by
  induction digits generalizing start with
  | nil => simp
  | cons digit rest ih =>
    rw [Nat.ofDigitChars_cons]
    exact le_trans (by omega) (ih _)

theorem parse_digits_eq {digits : Text} (all : ∀ digit ∈ digits, digit.isDigit = true)
    (fits : Nat.ofDigitChars 10 digits 0 < usizeLimit) :
    parseDigits digits = some (Nat.ofDigitChars 10 digits 0) := by
  unfold parseDigits
  generalize 0 = start at *
  induction digits generalizing start with
  | nil => simp
  | cons digit rest ih =>
    have first := all digit List.mem_cons_self
    rw [Nat.ofDigitChars_cons] at fits ⊢
    have small := lt_of_le_of_lt (of_digit_chars_ge rest _) fits
    have same : start * 10 + (digit.toNat - '0'.toNat) = 10 * start + (digit.toNat - '0'.toNat) := by
      ring
    rw [List.foldlM_cons, if_pos first]
    dsimp only
    rw [same, if_pos small]
    exact ih (fun other member => all other (List.mem_cons_of_mem _ member)) _ fits

theorem parse_usize_decimal {number : Nat} (fits : number < usizeLimit) :
    parseUsize (decimal number) = some number := by
  have value : Nat.ofDigitChars 10 (decimal number) 0 = number := by
    rw [decimal, Nat.toString_eq_repr, Nat.toList_repr,
      Nat.ofDigitChars_toDigits (by decide) (by decide)]
  have parsed : parseDigits (decimal number) = some number := by
    rw [parse_digits_eq (decimal_digits number) (by rw [value]; exact fits), value]
  have notPlus : ∀ rest, decimal number ≠ '+' :: rest := fun rest same =>
    absurd (decimal_digits number '+' (same ▸ List.mem_cons_self)) (by decide)
  unfold parseUsize
  split
  · rename_i empty
    exact absurd empty (decimal_ne_nil number)
  · rename_i plus
    exact absurd plus (notPlus _)
  · rename_i plus
    exact absurd plus (notPlus _)
  · exact parsed

theorem digit_not_space {char : Char} (isDigit : char.isDigit = true) : Text.isWhitespace char = false := by
  have range : 48 ≤ char.toNat ∧ char.toNat ≤ 57 := Char.isDigit_iff_toNat.mp isDigit
  unfold Text.isWhitespace
  generalize char.toNat = code at *
  simp only [Bool.or_eq_false_iff, Bool.and_eq_false_iff, decide_eq_false_iff_not]
  omega

/-- The value of a key that was found, behind its colon. -/
theorem value_behind (key : String) {before blanks value header : Text} {quote : Char} (oneByte : quote.utf8Size = 1)
    (found : (Text.find (quoted '\'' key) header).or (Text.find (quoted '"' key) header) = some before.byteLength)
    (isHeader : header = before ++ (quoted quote key ++ (blanks ++ ':' :: value))) (noColon : ':' ∉ blanks)
    (fits : Addressable header) : valueOf header key = .ok (some value.trimStart) := by
  have limits : isizeLimit < usizeLimit := by decide
  have isQuoted : Text.byteLength (quoted '\'' key) = Text.byteLength (quoted quote key) := by
    simp only [quoted, Text.byte_length_cons, Text.byte_length_append, oneByte]
    rfl
  have after : Text.sliceFrom header (before.byteLength + Text.byteLength (quoted quote key)) =
      some (blanks ++ ':' :: value) := by
    rw [isHeader, ← List.append_assoc, ← Text.byte_length_append]
    exact Text.slice_from_append _ _
  have behind : Text.sliceFrom (blanks ++ ':' :: value) (blanks.byteLength + 1) = some value := by
    have split : blanks ++ ':' :: value = (blanks ++ [':']) ++ value := by simp
    have length : blanks.byteLength + 1 = Text.byteLength (blanks ++ [':']) := by
      rw [Text.byte_length_append]
      rfl
    rw [split, length]
    exact Text.slice_from_append _ _
  unfold Addressable at fits
  rw [isHeader, Text.byte_length_append, Text.byte_length_append, Text.byte_length_append, Text.byte_length_cons] at fits
  have colon := Char.utf8Size_pos ':'
  unfold valueOf
  rw [found]
  dsimp only
  rw [isQuoted, usize_add_of_lt (by omega), ok_bind, sliced_some after, ok_bind, Text.find_char noColon]
  dsimp only
  rw [usize_add_of_lt (by omega), ok_bind, sliced_some behind]
  rfl

theorem not_digit_not_mem {char : Char} (notDigit : char.isDigit = false) (number : Nat) :
    char ∉ decimal number := by
  intro member
  rw [decimal_digits number char member] at notDigit
  cases notDigit

theorem parse_part {part : Text} {number : Nat} {rest : List Text} {values : List Nat}
    (trimmed : part.trim = decimal number) (fits : number < usizeLimit)
    (others : parseParts rest = some values) : parseParts (part :: rest) = some (number :: values) := by
  have some_ : (decimal number).isEmpty = false := by
    simpa using decimal_ne_nil number
  rw [parseParts, trimmed, some_, parse_usize_decimal fits, others]
  rfl

theorem parse_shape_found {header behind inner : Text} {shape : List Nat} (noClosing : ')' ∉ '(' :: inner)
    (parts : parseParts (inner.splitOn ',') = some shape)
    (found : valueOf header "shape" = .ok (some ('(' :: (inner ++ ')' :: behind)))) :
    parseShape header = .ok (some shape) := by
  have opening : Text.find ['('] ('(' :: (inner ++ ')' :: behind)) = some 0 := by
    simp [Text.find]
  have closing : Text.find [')'] ('(' :: (inner ++ ')' :: behind)) = some (Text.byteLength ('(' :: inner)) :=
    Text.find_char noClosing
  have sliced_ : Text.slice ('(' :: (inner ++ ')' :: behind)) (0 + 1) (Text.byteLength ('(' :: inner)) =
      some inner := by
    have oneByte : Char.utf8Size '(' = 1 := rfl
    have from_ : Text.sliceFrom ('(' :: (inner ++ ')' :: behind)) (0 + 1) = some (inner ++ ')' :: behind) :=
      slice_from_char '(' _
    rw [Text.slice, if_pos (by rw [Text.byte_length_cons]; omega), from_, Option.bind_some,
      Text.byte_length_cons, oneByte, show 1 + inner.byteLength - (0 + 1) = inner.byteLength by omega]
    exact Text.slice_to_append _ _
  unfold parseShape
  rw [found, ok_bind]
  dsimp only
  rw [opening, closing]
  dsimp only
  rw [usize_add_of_lt (by decide), ok_bind, sliced_some sliced_, ok_bind, parts]
  rfl

inductive NpyKey where
  | descr
  | fortranOrder
  | shape
deriving DecidableEq

def NpyKey.name : NpyKey → String
  | .descr => "descr"
  | .fortranOrder => "fortran_order"
  | .shape => "shape"

/-- The first letter of a key, which no other key begins with. -/
def NpyKey.initial : NpyKey → Char
  | .descr => 'd'
  | .fortranOrder => 'f'
  | .shape => 's'

inductive Quote where
  | single
  | double
deriving DecidableEq

def Quote.char : Quote → Char
  | .single => '\''
  | .double => '"'

abbrev Blank := { text : Text // ∀ char ∈ text, Text.isWhitespace char = true }

/-- How the dictionary is written. A comma may stand behind the second dimension and the last entry. -/
structure HeaderSpelling where
  lead : Blank
  order : List NpyKey
  complete : order.Perm [.descr, .fortranOrder, .shape]
  quote : NpyKey → Quote
  descrQuote : Quote
  before : NpyKey → Blank
  beforeColon : NpyKey → Blank
  afterColon : NpyKey → Blank
  behind : NpyKey → Blank
  beforeDim : Nat → Blank
  afterDim : Nat → Blank
  dimComma : Bool
  behindDims : Blank
  lastComma : Bool
  closing : Blank
  padding : Blank

structure HeaderValues where
  descr : Text
  /-- A type holds none of the marks of a dictionary, and begins as no key does. -/
  typed : ∀ char ∈ descr, char ∉ ['\'', '"', '(', ')', ',']
  apart : ∀ char ∈ descr.head?, char ∉ ['d', 'f', 's']
  fortran : Bool
  shape : List Nat

namespace HeaderSpelling

section

variable (spelling : HeaderSpelling) (values : HeaderValues)

def dims (index : Nat) : List Nat → Text
  | [] => spelling.behindDims.1
  | dim :: rest => (spelling.beforeDim index).1 ++ (decimal dim ++ ((spelling.afterDim index).1 ++
      if index ≠ 0 ∧ rest = [] ∧ spelling.dimComma = false then [] else ',' :: dims (index + 1) rest))

def written : NpyKey → Text
  | .descr => spelling.descrQuote.char :: (values.descr ++ [spelling.descrQuote.char])
  | .fortranOrder => if values.fortran then "True".toList else "False".toList
  | .shape => '(' :: (spelling.dims 0 values.shape ++ [')'])

def entry (key : NpyKey) : Text :=
  (spelling.before key).1 ++ (quoted (spelling.quote key).char key.name ++ ((spelling.beforeColon key).1 ++
    ':' :: ((spelling.afterColon key).1 ++ (spelling.written values key ++ (spelling.behind key).1))))

def comma (rest : List NpyKey) : Text := if spelling.lastComma = false ∧ rest = [] then [] else [',']

def entries : List NpyKey → Text
  | [] => []
  | key :: rest => spelling.entry values key ++ (spelling.comma rest ++ entries rest)

/-- The end of the header, padded to a line. -/
def ending : Text := spelling.closing.1 ++ '\x7d' :: spelling.padding.1

def header : Text := spelling.lead.1 ++ '{' :: (spelling.entries values spelling.order ++ spelling.ending)

end

/-- No quote with the letter behind it, nor such a letter at the start. -/
def Silent (quote next : Char) (text : Text) : Prop :=
  ¬[quote, next] <:+: text ∧ ∀ char ∈ text.head?, char ≠ next

instance (quote next : Char) (text : Text) : Decidable (Silent quote next text) :=
  @instDecidableAnd _ _ inferInstance (Option.decidableForallMem _)

section Silence

variable {quote next : Char} {first second : Text}

theorem silent_append (firstSilent : Silent quote next first) (secondSilent : Silent quote next second) :
    Silent quote next (first ++ second) := by
  constructor
  · intro pair
    rcases List.infix_append_iff_ne_nil.mp pair with inFirst | inSecond | ⟨left, right, some, filled, split, -, starts⟩
    · exact firstSilent.1 inFirst
    · exact secondSilent.1 inSecond
    · obtain ⟨char, others, rfl⟩ := List.exists_cons_of_ne_nil some
      obtain ⟨letter, more, rfl⟩ := List.exists_cons_of_ne_nil filled
      have isNext : letter = next := by
        cases others with
        | nil => exact (List.cons_eq_cons.mp (List.cons_eq_cons.mp split).2).1.symm
        | cons => simp at split
      obtain ⟨behind, rfl⟩ := starts
      exact secondSilent.2 letter rfl isNext
  · intro char isHead
    cases first with
    | nil => exact secondSilent.2 char isHead
    | cons => exact firstSilent.2 char isHead

theorem silent_cons {char : Char} (differs : char ≠ quote ∧ char ≠ next) (silent : Silent quote next first) :
    Silent quote next (char :: first) := by
  refine @silent_append quote next [char] first ⟨fun pair => ?_, fun other isOther => ?_⟩ silent
  · exact absurd pair.length_le (by simp)
  · rw [← Option.some.inj isOther]
    exact differs.2

/-- Behind a silent text and a quote the key is found there and nowhere before. -/
theorem pair_behind_silent (silent : Silent quote next first) (differs : quote ≠ next) :
    ¬[quote, next] <:+: first ++ [quote] :=
  (@silent_append quote next first [quote] silent ⟨fun pair => absurd pair.length_le (by simp), fun _ isQuote =>
    Option.some.inj isQuote ▸ differs⟩).1

/-- Text that differs from a pattern behind the two characters that tell it apart. -/
theorem lookalike_absent {rest behind : Text} (silent : Silent quote next first) (differs : quote ≠ next)
    (apart : ¬quote :: next :: rest <+: quote :: next :: behind) (silentBehind : Silent quote next behind) :
    ¬quote :: next :: rest <:+: first ++ quote :: next :: behind := by
  have startsPair : [quote, next] <+: quote :: next :: rest := ⟨rest, rfl⟩
  intro found
  rcases List.infix_append_iff_ne_nil.mp found with inFirst | inSecond | ⟨left, right, some, filled, split, ends, starts⟩
  · exact silent.1 (startsPair.isInfix.trans inFirst)
  · rcases List.infix_cons_iff.mp inSecond with here | later
    · exact apart here
    rcases List.infix_cons_iff.mp later with here | later
    · exact differs (List.cons_prefix_cons.mp here).1
    · exact silentBehind.1 (startsPair.isInfix.trans later)
  · obtain ⟨char, others, rfl⟩ := List.exists_cons_of_ne_nil some
    obtain ⟨isQuote, afterQuote⟩ := List.cons_eq_cons.mp split
    cases others with
    | nil =>
      rw [← show next :: rest = right from afterQuote] at starts
      exact differs (List.cons_prefix_cons.mp starts).1.symm
    | cons letter others =>
      rw [← isQuote, ← (List.cons_eq_cons.mp afterQuote).1] at ends
      exact silent.1 (List.IsInfix.trans ⟨[], others, rfl⟩ ends.isInfix)

end Silence

/-- No character of the text is a quote or begins a key. -/
def Plain (text : Text) : Prop := ∀ char ∈ text, char ∉ ['\'', '"', 'd', 'f', 's']

section Parts

variable {spelling : HeaderSpelling} {values : HeaderValues} {quote : Quote}

theorem silent_plain {text : Text} {key : NpyKey} (plain : Plain text) : Silent quote.char key.initial text := by
  have apart {char : Char} (member : char ∈ text) : char ≠ quote.char ∧ char ≠ key.initial := by
    have absent := plain char member
    constructor
    · rintro rfl
      exact absent (by cases quote <;> decide)
    · rintro rfl
      exact absent (by cases key <;> decide)
  constructor
  · intro pair
    exact (apart (pair.subset List.mem_cons_self)).1 rfl
  · intro char isHead
    exact (apart (List.mem_of_mem_head? isHead)).2

theorem plain_append {first second : Text} (firstPlain : Plain first) (secondPlain : Plain second) :
    Plain (first ++ second) := fun char member =>
  (List.mem_append.mp member).elim (firstPlain char) (secondPlain char)

theorem plain_blank (blank : Blank) : Plain blank.1 := by
  intro char member marked
  have isBlank := blank.2 char member
  simp only [List.mem_cons, List.not_mem_nil, or_false] at marked
  rcases marked with rfl | rfl | rfl | rfl | rfl <;> exact absurd isBlank (by decide)

theorem plain_decimal (number : Nat) : Plain (decimal number) := by
  intro char member marked
  have isDigit := decimal_digits number char member
  simp only [List.mem_cons, List.not_mem_nil, or_false] at marked
  rcases marked with rfl | rfl | rfl | rfl | rfl <;> exact absurd isDigit (by decide)

theorem plain_cons {char : Char} {text : Text} (first : char ∉ ['\'', '"', 'd', 'f', 's']) (plain : Plain text) :
    Plain (char :: text) := List.forall_mem_cons.mpr ⟨first, plain⟩

theorem plain_dims (index : Nat) (shape : List Nat) : Plain (spelling.dims index shape) := by
  induction shape generalizing index with
  | nil => exact plain_blank _
  | cons dim rest ih =>
    refine plain_append (plain_blank _) (plain_append (plain_decimal dim) (plain_append (plain_blank _) ?_))
    split
    · exact nofun
    · exact plain_cons (by decide) (ih _)

theorem plain_ending : Plain spelling.ending :=
  plain_append (plain_blank _) (plain_cons (by decide) (plain_blank _))

theorem plain_comma (rest : List NpyKey) : Plain (spelling.comma rest) := by
  unfold comma
  split
  · exact nofun
  · exact plain_cons (by decide) nofun

theorem written_silent (key other : NpyKey) : Silent quote.char key.initial (spelling.written values other) := by
  cases other with
  | descr =>
    have mark (mark : Quote) : Silent quote.char key.initial [mark.char] := by
      cases mark <;> cases quote <;> cases key <;> decide
    refine @silent_append _ _ [spelling.descrQuote.char] _ (mark _) (silent_append ⟨fun pair => ?_, ?_⟩ (mark _))
    · exact values.typed _ (pair.subset List.mem_cons_self) (by cases quote <;> decide)
    · rintro char isHead rfl
      exact values.apart _ isHead (by cases key <;> decide)
  | fortranOrder =>
    cases isOrder : values.fortran <;> rw [written, isOrder] <;> cases quote <;> cases key <;> decide
  | shape =>
    apply silent_plain
    exact plain_cons (by decide) (plain_append (plain_dims 0 values.shape)
      (plain_cons (by decide) nofun))

theorem colon_apart (key : NpyKey) : ':' ≠ quote.char ∧ ':' ≠ key.initial := by
  cases quote <;> cases key <;> decide

theorem quote_apart (quote : Quote) (key : NpyKey) : quote.char ≠ key.initial := by
  cases quote <;> cases key <;> decide

theorem behind_silent (key other : NpyKey) {follow : Text} (silent : Silent quote.char key.initial follow) :
    Silent quote.char key.initial ((spelling.beforeColon other).1 ++ ':' :: ((spelling.afterColon other).1 ++
      (spelling.written values other ++ ((spelling.behind other).1 ++ follow)))) := by
  refine silent_append (silent_plain (plain_blank _)) ?_
  refine silent_cons (colon_apart key) ?_
  refine silent_append (silent_plain (plain_blank _)) ?_
  refine silent_append (written_silent key other) ?_
  exact silent_append (silent_plain (plain_blank _)) silent

theorem entry_silent {key other : NpyKey} (differ : other ≠ key) :
    Silent quote.char key.initial (spelling.entry values other) := by
  refine silent_append (silent_plain (plain_blank _)) ?_
  apply silent_append
  · cases spelling.quote other <;> cases quote <;> cases key <;> cases other <;> first | decide | exact absurd rfl differ
  · have nothing : Silent quote.char key.initial [] := ⟨by simp, nofun⟩
    have behind := @behind_silent spelling values quote key other _ nothing
    rwa [List.append_nil] at behind

theorem entries_silent {key : NpyKey} {keys : List NpyKey} (absent : key ∉ keys) :
    Silent quote.char key.initial (spelling.entries values keys) := by
  induction keys with
  | nil => exact ⟨by simp [entries], nofun⟩
  | cons first rest ih =>
    rw [List.mem_cons, not_or] at absent
    refine silent_append (entry_silent (Ne.symm absent.1)) ?_
    exact silent_append (silent_plain (plain_comma rest)) (ih absent.2)

theorem entries_append (before : List NpyKey) (key : NpyKey) (after : List NpyKey) :
    spelling.entries values (before ++ key :: after) =
      (before.flatMap fun other => spelling.entry values other ++ [',']) ++
        (spelling.entry values key ++ (spelling.comma after ++ spelling.entries values after)) := by
  induction before with
  | nil => rfl
  | cons first rest ih =>
    have comma : spelling.comma (rest ++ key :: after) = [','] := by simp [comma]
    rw [List.cons_append, entries, ih, comma, List.flatMap_cons, List.append_assoc, List.append_assoc]

end Parts

/-- A comma stands behind the entry of the key. -/
def Followed (spelling : HeaderSpelling) (key : NpyKey) : Prop :=
  spelling.lastComma = true ∨ spelling.order.getLast? ≠ some key

instance (spelling : HeaderSpelling) (key : NpyKey) : Decidable (spelling.Followed key) :=
  inferInstanceAs (Decidable (_ ∨ _))

theorem key_name (key : NpyKey) : ∃ letters, key.name.toList = key.initial :: letters := by
  cases key <;> exact ⟨_, rfl⟩

section Found

variable (spelling : HeaderSpelling) (values : HeaderValues)

/-- From the colon of an entry to the end of the header. -/
def fromColon (key : NpyKey) (follow : Text) : Text :=
  (spelling.beforeColon key).1 ++ ':' :: ((spelling.afterColon key).1 ++
    (spelling.written values key ++ ((spelling.behind key).1 ++ follow)))

/-- A key and its value, where nothing before or behind looks like the key. -/
theorem key_placed (key : NpyKey) : ∃ front follow, spelling.header values =
      front ++ (quoted (spelling.quote key).char key.name ++ spelling.fromColon values key follow) ∧
    (∀ quote : Quote, Silent quote.char key.initial front ∧ Silent quote.char key.initial follow) ∧
    (spelling.Followed key ∧ (∃ rest, follow = ',' :: rest) ∨ ¬spelling.Followed key ∧ follow = spelling.ending) := by
  have isKey : key ∈ spelling.order := by
    rw [spelling.complete.mem_iff]
    cases key <;> decide
  have once : spelling.order.Nodup := by
    rw [spelling.complete.nodup_iff]
    decide
  obtain ⟨before, after, isOrder⟩ := List.mem_iff_append.mp isKey
  rw [isOrder] at once
  have apart := List.nodup_middle.mp once
  rw [List.nodup_cons, List.mem_append, not_or] at apart
  obtain ⟨⟨notBefore, notAfter⟩, -⟩ := apart
  have flatSilent (quote : Quote) : Silent quote.char key.initial
      (before.flatMap fun other => spelling.entry values other ++ [',']) := by
    clear once isOrder
    induction before with
    | nil => exact ⟨by simp, nofun⟩
    | cons first rest ih =>
      rw [List.mem_cons, not_or] at notBefore
      apply silent_append (silent_append (entry_silent (Ne.symm notBefore.1)) _) (ih notBefore.2)
      exact silent_plain (plain_cons (by decide) nofun)
  refine ⟨spelling.lead.1 ++ '{' :: ((before.flatMap fun other => spelling.entry values other ++ [',']) ++
      (spelling.before key).1), spelling.comma after ++ (spelling.entries values after ++ spelling.ending), ?_,
      fun quote => ⟨?_, ?_⟩, ?_⟩
  · rw [header, isOrder, entries_append]
    simp [entry, fromColon]
  · apply silent_append (silent_plain (plain_blank _))
    apply silent_cons (by cases quote <;> cases key <;> decide)
    exact silent_append (flatSilent quote) (silent_plain (plain_blank _))
  · apply silent_append (silent_plain (plain_comma after))
    exact silent_append (entries_silent notAfter) (silent_plain plain_ending)
  · have isLast : spelling.order.getLast? = some key ↔ after = [] := by
      rw [isOrder, List.getLast?_append, List.getLast?_cons]
      cases isEnd : after.getLast? with
      | none => simpa using isEnd
      | some other =>
        have isAfter := List.mem_of_getLast? isEnd
        apply iff_of_false
        · intro same
          rw [← show other = key by simpa using same] at notAfter
          exact notAfter isAfter
        · rintro rfl
          cases isAfter
    unfold Followed comma
    rw [ne_eq, isLast]
    by_cases ended : spelling.lastComma = false ∧ after = []
    · rw [if_pos ended, ended.2]
      exact .inr ⟨by simp [ended.1], rfl⟩
    · rw [if_neg ended]
      refine .inl ⟨?_, _, rfl⟩
      cases comma_ : spelling.lastComma with
      | true => exact .inl rfl
      | false => exact .inr fun empty => ended ⟨comma_, empty⟩

theorem blank_apart (blank : Blank) {char : Char} (solid : Text.isWhitespace char = false) : char ∉ blank.1 := by
  intro member
  rw [blank.2 char member] at solid
  cases solid

/-- What a key's value starts with is no blank. -/
theorem trim_start_written (key : NpyKey) (behind : Text) :
    Text.trimStart ((spelling.afterColon key).1 ++ (spelling.written values key ++ behind)) =
      spelling.written values key ++ behind := by
  rw [Text.trimStart, List.dropWhile_append_of_pos (spelling.afterColon key).2]
  cases key with
  | descr =>
    change List.dropWhile _ (spelling.descrQuote.char :: _) = spelling.descrQuote.char :: _
    cases spelling.descrQuote <;> rfl
  | fortranOrder =>
    rw [written]
    cases values.fortran <;> rfl
  | shape => rfl

theorem value_found (fits : Addressable (spelling.header values)) (key : NpyKey) :
    ∃ behind, valueOf (spelling.header values) key.name =
      .ok (some (spelling.written values key ++ behind)) := by
  obtain ⟨front, follow, isHeader, silent, -⟩ := key_placed spelling values key
  obtain ⟨letters, isName⟩ := key_name key
  have byPair (quote : Quote) (isQuote : spelling.quote key = quote) :
      Text.find (quoted quote.char key.name) (spelling.header values) = some front.byteLength := by
    rw [isHeader, isQuote, quoted, isName]
    exact Text.find_pair (pair_behind_silent (silent quote).1 (quote_apart quote key))
  have found : (Text.find (quoted '\'' key.name) (spelling.header values)).or
      (Text.find (quoted '"' key.name) (spelling.header values)) = some front.byteLength := by
    cases isQuote : spelling.quote key with
    | single =>
      change (Text.find (quoted Quote.single.char key.name) _).or _ = _
      rw [byPair .single isQuote, Option.some_or]
    | double =>
      have absent : ¬quoted '\'' key.name <:+: spelling.header values := by
        have whole : Silent Quote.single.char key.initial (spelling.header values) := by
          rw [isHeader, isQuote]
          apply silent_append (silent .single).1 (silent_append _ _)
          · cases key <;> decide
          · exact behind_silent key key (silent .single).2
        intro inHeader
        apply whole.1 (List.IsInfix.trans _ inHeader)
        rw [quoted, isName]
        exact ⟨[], _, rfl⟩
      rw [Text.find_absent absent, Option.none_or]
      exact byPair .double isQuote
  refine ⟨(spelling.behind key).1 ++ follow, ?_⟩
  rw [value_behind key.name (by cases spelling.quote key <;> rfl) found isHeader (blank_apart _ (by decide)) fits,
    trim_start_written]

theorem dims_apart (index : Nat) (shape : List Nat) {char : Char} (noDigit : char.isDigit = false)
    (solid : Text.isWhitespace char = false)
    (noComma : char ≠ ',') : char ∉ spelling.dims index shape := by
  induction shape generalizing index with
  | nil => exact blank_apart _ solid
  | cons dim rest ih =>
    have number : char ∉ decimal dim := not_digit_not_mem noDigit dim
    rw [dims]
    split <;> simp [blank_apart _ solid, number, noComma, ih]

theorem trim_blank (blank : Blank) : Text.trim blank.1 = [] := by
  have nothing : Text.trimStart blank.1 = [] := List.dropWhile_eq_nil_iff.mpr blank.2
  rw [Text.trim, nothing]
  rfl

/-- Blanks around a text that neither begins nor ends with one. -/
theorem trim_around (left right : Blank) {text : Text} (first : ∀ char ∈ text.head?, Text.isWhitespace char = false)
    (last : ∀ char ∈ text.getLast?, Text.isWhitespace char = false) : Text.trim (left.1 ++ (text ++ right.1)) = text := by
  have solid {other : Text} (head : ∀ char ∈ other.head?, Text.isWhitespace char = false) (behind : Text)
      (filled : other ≠ []) : (other ++ behind).dropWhile Text.isWhitespace = other ++ behind := by
    obtain ⟨char, rest, rfl⟩ := List.exists_cons_of_ne_nil filled
    rw [List.cons_append, List.dropWhile_cons_of_neg]
    rw [head char rfl]
    exact Bool.false_ne_true
  by_cases empty : text = []
  · have both : ∀ char ∈ left.1 ++ right.1, Text.isWhitespace char = true := fun char member =>
      (List.mem_append.mp member).elim (left.2 char) (right.2 char)
    rw [empty, List.nil_append]
    exact trim_blank ⟨_, both⟩
  · rw [Text.trim, Text.trimStart, Text.trimStart, List.dropWhile_append_of_pos left.2, solid first _ empty,
      List.reverse_append, List.dropWhile_append_of_pos, ← List.append_nil text.reverse, solid _ _ (by simpa using empty),
      List.append_nil, List.reverse_reverse]
    · rw [List.head?_reverse]
      exact last
    · simpa using right.2

theorem parse_parts_dims (index : Nat) {shape : List Nat} (small : ∀ dim ∈ shape, dim < usizeLimit) :
    parseParts ((spelling.dims index shape).splitOn ',') = some shape := by
  have noComma (blank : Blank) : ',' ∉ blank.1 := blank_apart blank (by decide)
  induction shape generalizing index with
  | nil =>
    rw [dims, List.splitOn_eq_singleton (noComma _), parseParts, trim_blank]
    rfl
  | cons dim rest ih =>
    have digits := decimal_digits dim
    have trimmed : Text.trim ((spelling.beforeDim index).1 ++ (decimal dim ++ (spelling.afterDim index).1)) =
        decimal dim :=
      trim_around _ _ (fun char isHead => digit_not_space (digits char (List.mem_of_mem_head? isHead)))
        fun char isLast => digit_not_space (digits char (List.mem_of_getLast? isLast))
    have number : ',' ∉ decimal dim := not_digit_not_mem (by decide) dim
    have noCommas : ',' ∉ (spelling.beforeDim index).1 ++ (decimal dim ++ (spelling.afterDim index).1) := by
      simp [noComma, number]
    have others := ih (index + 1) fun other member => small other (List.mem_cons_of_mem _ member)
    rw [dims]
    split
    · rename_i ended
      rw [List.append_nil, List.splitOn_eq_singleton noCommas, ended.2.1]
      exact parse_part trimmed (small dim List.mem_cons_self) rfl
    · rw [← List.append_assoc, ← List.append_assoc, List.append_assoc (spelling.beforeDim index).1,
        List.splitOn_append_cons_self_of_not_mem noCommas]
      exact parse_part trimmed (small dim List.mem_cons_self) others

/-- The search side reads every spelling. -/
theorem search_fields {dtype : NpyDtype} {littleEndian : Bool}
    (isType : parseDescr values.descr = .ok (dtype, littleEndian))
    (fits : Addressable (spelling.header values)) (small : ∀ dim ∈ values.shape, dim < usizeLimit) (dataOffset : Nat) :
    parseFields (spelling.header values) dataOffset =
      .ok ⟨dtype, littleEndian, values.fortran, values.shape, dataOffset⟩ := by
  obtain ⟨behindDescr, isDescr⟩ := value_found spelling values fits .descr
  obtain ⟨behindFortran, isFortran⟩ := value_found spelling values fits .fortranOrder
  obtain ⟨behindShape, isShape⟩ := value_found spelling values fits .shape
  have descr : parseStrValue (spelling.header values) "descr" = .ok (some values.descr) := by
    have oneByte : spelling.descrQuote.char.utf8Size = 1 := by cases spelling.descrQuote <;> rfl
    have isQuote : ¬(spelling.descrQuote.char ≠ '\'' ∧ spelling.descrQuote.char ≠ '"') := by
      cases spelling.descrQuote <;> decide
    have unquoted : Text.sliceFrom (spelling.descrQuote.char ::
        (values.descr ++ spelling.descrQuote.char :: behindDescr)) 1 =
        some (values.descr ++ spelling.descrQuote.char :: behindDescr) := by
      have behind := slice_from_char spelling.descrQuote.char (values.descr ++ spelling.descrQuote.char :: behindDescr)
      rwa [oneByte] at behind
    have quoteFree : spelling.descrQuote.char ∉ values.descr := fun member =>
      values.typed _ member (by cases spelling.descrQuote <;> decide)
    have same : spelling.written values .descr ++ behindDescr =
        spelling.descrQuote.char :: (values.descr ++ spelling.descrQuote.char :: behindDescr) := by
      simp [written]
    change valueOf _ "descr" = _ at isDescr
    rw [same] at isDescr
    unfold parseStrValue
    rw [isDescr, ok_bind]
    dsimp only
    rw [if_neg isQuote, sliced_some unquoted, ok_bind, Text.find_char quoteFree]
    dsimp only
    rw [sliced_some (Text.slice_to_append _ _)]
    rfl
  have fortran : parseBoolValue (spelling.header values) "fortran_order" = .ok (some values.fortran) := by
    change valueOf _ "fortran_order" = _ at isFortran
    unfold parseBoolValue
    rw [isFortran, ok_bind, written]
    cases values.fortran <;> rfl
  have dimensions : parseShape (spelling.header values) = .ok (some values.shape) := by
    have noClosing : ')' ∉ '(' :: spelling.dims 0 values.shape := by
      simp [@dims_apart spelling 0 values.shape ')' (by decide) (by decide) (by decide)]
    have same : spelling.written values .shape ++ behindShape =
        '(' :: (spelling.dims 0 values.shape ++ ')' :: behindShape) := by
      simp [written]
    change valueOf _ "shape" = _ at isShape
    rw [same] at isShape
    exact parse_shape_found noClosing (parse_parts_dims spelling 0 small) isShape
  unfold parseFields
  rw [descr, ok_bind, okOr, ok_bind, fortran, ok_bind, okOr, ok_bind, dimensions, ok_bind, okOr, ok_bind, isType]
  rfl

/-- A file with that header is laid out, with the data that stand behind it. -/
theorem lay_out_file (utf8Error : List UInt8 → String) {dtype : NpyDtype} {littleEndian : Bool} {version : NpyVersion}
    {data : List UInt8} (isType : parseDescr values.descr = .ok (dtype, littleEndian))
    (dims : values.shape.length ≤ 2 ∧ values.shape ≠ []) (small : ∀ dim ∈ values.shape, dim < usizeLimit)
    (positive : 0 < dtype.size) (sized : data.length = values.shape.prod * dtype.size)
    (header : (encodeText (spelling.header values)).length < 256 ^ version.lengthBytes)
    (file : (npyFile version (spelling.header values) data).length < isizeLimit) :
    layOut utf8Error (npyFile version (spelling.header values) data) = .ok ⟨⟨dtype, littleEndian, values.fortran,
      values.shape, 8 + version.lengthBytes + (encodeText (spelling.header values)).length⟩, data⟩ := by
  have limits : isizeLimit < usizeLimit := by decide
  have length := npy_file_length version (spelling.header values) data
  have least := Nat.le_mul_of_pos_right values.shape.prod positive
  have fits : Addressable (spelling.header values) := by
    have same : (encodeText (spelling.header values)).length = (spelling.header values).byteLength := by
      simp [encodeText, Text.byteLength, List.length_flatMap]
    unfold Addressable
    omega
  refine (lay_out_eq_ok ⟨_, file⟩).mpr ⟨?_, ⟨dims.2, dims.1, ?_⟩, ?_, ?_⟩
  · unfold parseNpyHeader
    rw [header_text_of_file utf8Error header, ok_bind]
    exact search_fields spelling values isType fits small _
  · dsimp only
    omega
  · dsimp only
    omega
  · dsimp only
    rw [← sized]
    exact (data_of_file version (spelling.header values) data).symm

end Found

end HeaderSpelling

end Panoptikon.Embedding
