import Panoptikon.Foundation.TextParts

/-!
# The text of JSON values

The parts of a compact JSON text: strings with the escapes they need, and whole
numbers. A text has at least the bytes of the string it quotes.
-/

namespace Foundation.JsonText

def escapeChar (char : Char) : Text :=
  if char = '"' then ['\\', '"']
  else if char = '\\' then ['\\', '\\']
  else if char = '\x08' then ['\\', 'b']
  else if char = '\t' then ['\\', 't']
  else if char = '\n' then ['\\', 'n']
  else if char = '\x0c' then ['\\', 'f']
  else if char = '\r' then ['\\', 'r']
  else if char.toNat < 32 then ['\\', 'u', '0', '0', Nat.digitChar (char.toNat / 16), Nat.digitChar (char.toNat % 16)]
  else [char]

def quote (text : Text) : Text := '"' :: (text.flatMap escapeChar ++ ['"'])

def intText (value : Int) : Text :=
  if value < 0 then '-' :: Nat.toDigits 10 value.natAbs else Nat.toDigits 10 value.natAbs

def size (text : Text) : Nat := (Text.utf8 text).length

@[simp] theorem size_nil : size [] = 0 := rfl

@[simp] theorem size_append (first last : Text) : size (first ++ last) = size first + size last := by
  rw [size, Text.utf8, List.flatMap_append, List.length_append]
  rfl

theorem size_cons (char : Char) (text : Text) : size (char :: text) = char.utf8Size + size text := by
  rw [size, Text.utf8, List.flatMap_cons, List.length_append, String.length_utf8EncodeChar]
  rfl

theorem length_le_size (text : Text) : text.length ≤ size text := by
  induction text with
  | nil => exact Nat.le_refl 0
  | cons char rest ih =>
    have positive := char.utf8Size_pos
    rw [List.length_cons, size_cons]
    omega

theorem escape_size (char : Char) : char.utf8Size ≤ size (escapeChar char) := by
  unfold escapeChar
  split_ifs with quotes slash back tab line form carriage control
  · rw [quotes]
    decide
  · rw [slash]
    decide
  · rw [back]
    decide
  · rw [tab]
    decide
  · rw [line]
    decide
  · rw [form]
    decide
  · rw [carriage]
    decide
  · apply Nat.le_trans char.utf8Size_le_four
    apply Nat.le_trans _ (length_le_size _)
    exact Nat.le_of_ble_eq_true rfl
  · rw [size_cons]
    exact Nat.le_add_right _ _

theorem quote_size_ge (text : Text) : size text + 2 ≤ size (quote text) := by
  have inside : size text ≤ size (text.flatMap escapeChar) := by
    induction text with
    | nil => exact Nat.le_refl 0
    | cons char rest ih =>
      have here := escape_size char
      rw [size_cons, List.flatMap_cons, size_append]
      omega
  have quoteSize : size ['"'] = 1 := rfl
  have first : '"'.utf8Size = 1 := rfl
  rw [quote, size_cons, size_append, quoteSize, first]
  omega

end Foundation.JsonText
