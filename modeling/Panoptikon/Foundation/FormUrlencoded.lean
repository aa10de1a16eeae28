import Panoptikon.Foundation.TextParts

/-!
# Form-encoded queries

`application/x-www-form-urlencoded`: what a serializer writes of a list of pairs,
and what a parser reads of any bytes. A parser reads back what was written.
-/

namespace Foundation.FormUrlencoded

def unchanged (byte : UInt8) : Bool :=
  (48 ≤ byte && byte ≤ 57) || (65 ≤ byte && byte ≤ 90) || (97 ≤ byte && byte ≤ 122) ||
    byte == 42 || byte == 45 || byte == 46 || byte == 95

/-- A hexadecimal digit, a capital beyond nine. -/
def hexDigit (value : UInt8) : UInt8 := if value < 10 then 48 + value else 55 + value

def hexValue (byte : UInt8) : Option UInt8 :=
  if 48 ≤ byte ∧ byte ≤ 57 then some (byte - 48)
  else if 65 ≤ byte ∧ byte ≤ 70 then some (byte - 55)
  else if 97 ≤ byte ∧ byte ≤ 102 then some (byte - 87)
  else none

def encodeByte (byte : UInt8) : List UInt8 :=
  if unchanged byte then [byte]
  else if byte = 32 then [43]
  else [37, hexDigit (byte / 16), hexDigit (byte % 16)]

def encode (text : Text) : List UInt8 := (Text.utf8 text).flatMap encodeByte

def encodePair (pair : Text × Text) : List UInt8 := encode pair.1 ++ 61 :: encode pair.2

def serialize (pairs : List (Text × Text)) : List UInt8 := [38].intercalate (pairs.map encodePair)

def plusToSpace (byte : UInt8) : UInt8 := if byte = 43 then 32 else byte

/-- A percent sign without two digits behind it stands for itself. -/
def percentDecode : List UInt8 → List UInt8
  | byte :: high :: low :: rest =>
      if byte = 37 then
        match hexValue high, hexValue low with
        | some first, some second => (16 * first + second) :: percentDecode rest
        | _, _ => byte :: percentDecode (high :: low :: rest)
      else byte :: percentDecode (high :: low :: rest)
  | short => short

section Parser

variable (lossy : List UInt8 → Text)

def decode (bytes : List UInt8) : Text := lossy (percentDecode (bytes.map plusToSpace))

/-- A piece without an equals sign is a name with an empty value. -/
def parsePair (piece : List UInt8) : Text × Text :=
  (decode lossy (piece.takeWhile (· != 61)), decode lossy ((piece.dropWhile (· != 61)).drop 1))

def parse (query : List UInt8) : List (Text × Text) :=
  ((query.splitOn 38).filter fun piece => !piece.isEmpty).map (parsePair lossy)

end Parser

theorem nibbles (byte : UInt8) : byte / 16 < 16 ∧ byte % 16 < 16 ∧ 16 * (byte / 16) + byte % 16 = byte := by
  refine ⟨?_, ?_, ?_⟩
  · rw [UInt8.lt_iff_toNat_lt, UInt8.toNat_div]
    have small := byte.toNat_lt
    change byte.toNat / 16 < 16
    omega
  · rw [UInt8.lt_iff_toNat_lt, UInt8.toNat_mod]
    exact Nat.mod_lt byte.toNat (by decide)
  · apply UInt8.toNat.inj
    rw [UInt8.toNat_add, UInt8.toNat_mul, UInt8.toNat_div, UInt8.toNat_mod]
    have small := byte.toNat_lt
    change (16 * (byte.toNat / 16) % 256 + byte.toNat % 16) % 256 = byte.toNat
    omega

theorem hex_value_digit {value : UInt8} (small : value < 16) : hexValue (hexDigit value) = some value := by
  have cases (digit : Fin 16) : hexValue (hexDigit (UInt8.ofNat digit.val)) = some (UInt8.ofNat digit.val) := by
    revert digit
    decide
  have same := cases ⟨value.toNat, UInt8.lt_iff_toNat_lt.mp small⟩
  rwa [UInt8.ofNat_toNat] at same

theorem digit_plain {value : UInt8} (small : value < 16) :
    plusToSpace (hexDigit value) = hexDigit value ∧ hexDigit value ≠ 38 ∧ hexDigit value ≠ 61 := by
  have cases (digit : Fin 16) : plusToSpace (hexDigit (UInt8.ofNat digit.val)) = hexDigit (UInt8.ofNat digit.val) ∧
      hexDigit (UInt8.ofNat digit.val) ≠ 38 ∧ hexDigit (UInt8.ofNat digit.val) ≠ 61 := by
    revert digit
    decide
  have same := cases ⟨value.toNat, UInt8.lt_iff_toNat_lt.mp small⟩
  rwa [UInt8.ofNat_toNat] at same

theorem unchanged_ne {byte other : UInt8} (kept : unchanged byte = true) (isOther : unchanged other = false) :
    byte ≠ other := by
  rintro rfl
  rw [kept] at isOther
  cases isOther

theorem unchanged_plain {byte : UInt8} (kept : unchanged byte = true) :
    plusToSpace byte = byte ∧ byte ≠ 37 ∧ byte ≠ 38 ∧ byte ≠ 61 :=
  ⟨if_neg (unchanged_ne kept (by decide)), unchanged_ne kept (by decide), unchanged_ne kept (by decide),
    unchanged_ne kept (by decide)⟩

theorem percent_decode_plain {byte : UInt8} (plain : byte ≠ 37) (rest : List UInt8) :
    percentDecode (byte :: rest) = byte :: percentDecode rest := by
  cases rest with
  | nil => rfl
  | cons high rest =>
    cases rest with
    | nil => rfl
    | cons low rest =>
      rw [percentDecode]
      exact if_neg plain

theorem percent_decode_byte (byte : UInt8) (rest : List UInt8) :
    percentDecode ((encodeByte byte).map plusToSpace ++ rest) = byte :: percentDecode rest := by
  unfold encodeByte
  by_cases kept : unchanged byte = true
  · obtain ⟨same, plain, -, -⟩ := unchanged_plain kept
    rw [if_pos kept, List.map_singleton, same, List.singleton_append, percent_decode_plain plain]
  · rw [if_neg kept]
    by_cases space : byte = 32
    · rw [if_pos space, space]
      exact percent_decode_plain (by decide) rest
    · obtain ⟨high, low, whole⟩ := nibbles byte
      rw [if_neg space, List.map_cons, List.map_cons, List.map_singleton, (digit_plain high).1,
        (digit_plain low).1]
      change percentDecode (37 :: hexDigit (byte / 16) :: hexDigit (byte % 16) :: rest) = _
      rw [percentDecode, if_pos rfl, hex_value_digit high, hex_value_digit low]
      exact congrArg (· :: percentDecode rest) whole

theorem percent_decode_encode (text : Text) : percentDecode ((encode text).map plusToSpace) = Text.utf8 text := by
  unfold encode
  induction Text.utf8 text with
  | nil => rfl
  | cons byte rest ih => rw [List.flatMap_cons, List.map_append, percent_decode_byte, ih]

theorem encode_byte_plain {byte written : UInt8} (isWritten : written ∈ encodeByte byte) :
    written ≠ 38 ∧ written ≠ 61 := by
  unfold encodeByte at isWritten
  split at isWritten
  · rename_i kept
    rw [List.mem_singleton.mp isWritten]
    exact (unchanged_plain kept).2.2
  · obtain ⟨high, low, -⟩ := nibbles byte
    split at isWritten
    · rw [List.mem_singleton.mp isWritten]
      decide
    · rw [List.mem_cons, List.mem_cons, List.mem_singleton] at isWritten
      rcases isWritten with rfl | rfl | rfl
      · decide
      · exact (digit_plain high).2
      · exact (digit_plain low).2

theorem encode_plain {text : Text} {written : UInt8} (isWritten : written ∈ encode text) :
    written ≠ 38 ∧ written ≠ 61 := by
  obtain ⟨byte, -, isByte⟩ := List.mem_flatMap.mp isWritten
  exact encode_byte_plain isByte

theorem encode_pair_plain {pair : Text × Text} : (38 : UInt8) ∉ encodePair pair := by
  intro isWritten
  rcases List.mem_append.mp isWritten with inName | inRest
  · exact (encode_plain inName).1 rfl
  · rcases List.mem_cons.mp inRest with isSign | inValue
    · cases isSign
    · exact (encode_plain inValue).1 rfl

section Lossy

variable {lossy : List UInt8 → Text} (exact_text : ∀ text, lossy (Text.utf8 text) = text)

include exact_text

theorem decode_encode (text : Text) : decode lossy (encode text) = text := by
  rw [decode, percent_decode_encode]
  exact exact_text text

theorem parse_pair_encode (pair : Text × Text) : parsePair lossy (encodePair pair) = pair := by
  have passed : ∀ byte ∈ encode pair.1, (byte != 61) = true := by
    intro byte isWritten
    exact bne_iff_ne.mpr (encode_plain isWritten).2
  rw [parsePair, encodePair, List.takeWhile_append_of_pos passed, List.dropWhile_append_of_pos passed,
    List.takeWhile_cons_of_neg (by decide), List.dropWhile_cons_of_neg (by decide), List.append_nil,
    List.drop_one, List.tail_cons, decode_encode exact_text, decode_encode exact_text]

theorem parse_serialize (pairs : List (Text × Text)) : parse lossy (serialize pairs) = pairs := by
  cases pairs with
  | nil => rfl
  | cons first rest =>
    have pieces : (serialize (first :: rest)).splitOn 38 = (first :: rest).map encodePair := by
      apply List.splitOn_intercalate
      · intro piece isPiece
        obtain ⟨pair, -, rfl⟩ := List.mem_map.mp isPiece
        exact encode_pair_plain
      · exact List.cons_ne_nil _ _
    have filled : ((first :: rest).map encodePair).filter (fun piece => !piece.isEmpty) =
        (first :: rest).map encodePair := by
      rw [List.filter_eq_self]
      intro piece isPiece
      obtain ⟨pair, -, rfl⟩ := List.mem_map.mp isPiece
      rw [encodePair]
      cases encode pair.1 with
      | nil | cons => rfl
    have read : ((first :: rest).map encodePair).map (parsePair lossy) = first :: rest := by
      rw [List.map_map]
      apply (List.map_congr_left ?_).trans (List.map_id _)
      intro pair _
      exact parse_pair_encode exact_text pair
    rw [parse, pieces, filled, read]

end Lossy

end Foundation.FormUrlencoded
