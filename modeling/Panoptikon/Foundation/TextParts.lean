import Panoptikon.Foundation.ByteText

/-!
# The parts of a text

What the string operations of a header parser take a text apart into, and the
bytes of its UTF-8 encoding.
-/

namespace Foundation

namespace Text

def utf8 (text : Text) : List UInt8 := text.flatMap String.utf8EncodeChar

def fromUtf8 (bytes : List UInt8) : Option Text := bytes.toByteArray.utf8Decode?.map Array.toList

@[simp] theorem utf8_append (first second : Text) : utf8 (first ++ second) = utf8 first ++ utf8 second :=
  List.flatMap_append

theorem from_utf8_utf8 (text : Text) : fromUtf8 (utf8 text) = some text := by
  have decoded := @List.utf8Decode?_utf8Encode text
  unfold List.utf8Encode at decoded
  unfold fromUtf8 utf8
  rw [decoded]
  rfl

def contains (text pattern : Text) : Bool := (find pattern text).isSome

def stripPrefix (pattern text : Text) : Option Text :=
  if pattern.isPrefixOf text then some (text.drop pattern.length) else none

/-- Every copy of the pattern at the start, as many as the fuel allows. -/
def trimStartWithin (pattern : Text) : Nat → Text → Text
  | 0, text => text
  | fuel + 1, text =>
      match stripPrefix pattern text with
      | some rest => trimStartWithin pattern fuel rest
      | none => text

def trimStartMatches (pattern text : Text) : Text := trimStartWithin pattern text.length text

def trimEndMatches (pattern text : Text) : Text :=
  (trimStartMatches pattern.reverse text.reverse).reverse

/-- `str::trim_matches` of one character. -/
def trimChar (char : Char) (text : Text) : Text :=
  ((text.dropWhile (· = char)).reverse.dropWhile (· = char)).reverse

/-- The carriage return before a line feed is no part of the line. -/
def stripReturn (line : Text) : Text :=
  if line.getLast? = some '\r' then line.dropLast else line

/-- The lines, the last of which is not there when it is empty. -/
def lines (text : Text) : List Text :=
  let pieces := text.splitOn '\n'
  pieces.dropLast.map stripReturn ++ pieces.getLast?.toList.filter fun line => !line.isEmpty

def toAsciiLowercase (text : Text) : Text := text.map Char.toLower

/-- A number may begin with a plus sign. -/
def stripPlus : Text → Text
  | '+' :: rest => rest
  | text => text

/-- `str::parse::<usize>` on a 64-bit machine. -/
def parseUsize (text : Text) : Option Nat :=
  let digits := stripPlus text
  if digits.isEmpty || !digits.all Char.isDigit then none
  else if Nat.ofDigitChars 10 digits 0 < 2 ^ 64 then some (Nat.ofDigitChars 10 digits 0)
  else none

theorem strip_prefix_append (pattern rest : Text) : stripPrefix pattern (pattern ++ rest) = some rest := by
  unfold stripPrefix
  rw [if_pos (List.isPrefixOf_iff_prefix.mpr (List.prefix_append _ _)), List.drop_left]

theorem strip_prefix_differs {pattern text : Text} (differs : ¬pattern <+: text) :
    stripPrefix pattern text = none :=
  if_neg fun starts => differs (List.isPrefixOf_iff_prefix.mp starts)

theorem trim_start_none {pattern text : Text} (fuel : Nat) (differs : ¬pattern <+: text) :
    trimStartWithin pattern fuel text = text := by
  cases fuel with
  | zero => rfl
  | succ fuel => rw [trimStartWithin, strip_prefix_differs differs]

theorem trim_start_once {pattern rest : Text} (nonempty : pattern ≠ []) (differs : ¬pattern <+: rest) :
    trimStartMatches pattern (pattern ++ rest) = rest := by
  have positive := List.length_pos_iff.mpr nonempty
  obtain ⟨fuel, isLength⟩ : ∃ fuel, (pattern ++ rest).length = fuel + 1 :=
    ⟨pattern.length - 1 + rest.length, by rw [List.length_append]; omega⟩
  rw [trimStartMatches, isLength, trimStartWithin, strip_prefix_append]
  exact trim_start_none fuel differs

theorem trim_end_once {pattern rest : Text} (nonempty : pattern ≠ []) (differs : ¬pattern <:+ rest) :
    trimEndMatches pattern (rest ++ pattern) = rest := by
  rw [trimEndMatches, List.reverse_append, trim_start_once (by simpa using nonempty), List.reverse_reverse]
  rwa [List.reverse_prefix]

/-- The digits of a number are read back as the number, unless it is no `usize`. -/
theorem parse_usize_digits (number : Nat) :
    parseUsize (Nat.toDigits 10 number) = if number < 2 ^ 64 then some number else none := by
  have digits : ∀ char ∈ Nat.toDigits 10 number, char.isDigit = true := fun char member =>
    Nat.isDigit_of_mem_toDigits (by decide) (by decide) member
  have unsigned : stripPlus (Nat.toDigits 10 number) = Nat.toDigits 10 number := by
    unfold stripPlus
    split
    · rename_i rest same
      have plus := digits '+' (same ▸ List.mem_cons_self)
      exact absurd plus (by decide)
    · rfl
  have plain : ((Nat.toDigits 10 number).isEmpty || !(Nat.toDigits 10 number).all Char.isDigit) = false := by
    rw [Bool.or_eq_false_iff]
    exact ⟨by simp, by simpa using digits⟩
  unfold parseUsize
  simp only [unsigned, plain, Nat.ofDigitChars_toDigits (by decide : 1 < 10) (by decide : 10 ≤ 10)]
  rfl

end Text

end Foundation
