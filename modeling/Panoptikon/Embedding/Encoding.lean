import Panoptikon.Embedding.Faults

/-!
# Numpy files

The `.npy` format: a magic string, a version, the length of a header text, that
text and the data. A reader finds the text and the start of the data again.
-/

namespace Panoptikon.Embedding

open Foundation

inductive NpyVersion where
  | one
  | two
  | three

def NpyVersion.major : NpyVersion → UInt8
  | .one => 1
  | .two => 2
  | .three => 3

/-- How many bytes hold the length of the header. -/
def NpyVersion.lengthBytes : NpyVersion → Nat
  | .one => 2
  | .two | .three => 4

def encodeText (text : Text) : List UInt8 := text.flatMap String.utf8EncodeChar

def npyFile (version : NpyVersion) (header : Text) (data : List UInt8) : List UInt8 :=
  magic ++ [version.major, 0] ++ toLeBytes version.lengthBytes (encodeText header).length ++
    encodeText header ++ data

theorem to_le_bytes_length (size bits : Nat) : (toLeBytes size bits).length = size := by
  induction size generalizing bits with
  | zero => rfl
  | succ size ih => simp [toLeBytes, ih]

theorem le_bytes_to_le_bytes {size bits : Nat} (fits : bits < 256 ^ size) :
    leBytes (toLeBytes size bits) = bits := by
  induction size generalizing bits with
  | zero =>
    rw [pow_zero] at fits
    have zero : bits = 0 := by omega
    rw [zero]
    rfl
  | succ size ih =>
    have rest : bits / 256 < 256 ^ size := by
      rw [pow_succ] at fits
      omega
    have tail := ih rest
    unfold leBytes at tail ⊢
    rw [toLeBytes, List.foldr_cons, tail, UInt8.toNat_ofNat']
    exact Nat.mod_add_div bits 256

theorem npy_file_length (version : NpyVersion) (header : Text) (data : List UInt8) :
    (npyFile version header data).length =
      8 + version.lengthBytes + (encodeText header).length + data.length := by
  simp [npyFile, magic, to_le_bytes_length]
  omega

theorem middle_of_append {Elem : Type} (first middle last : List Elem) :
    ((first ++ middle ++ last).take (first.length + middle.length)).drop first.length = middle := by
  rw [← List.length_append, List.take_left, List.drop_left]

theorem data_of_file (version : NpyVersion) (header : Text) (data : List UInt8) : ((npyFile version header data).take
      (8 + version.lengthBytes + (encodeText header).length + data.length)).drop
      (8 + version.lengthBytes + (encodeText header).length) = data := by
  let front := magic ++ [version.major, 0] ++ toLeBytes version.lengthBytes (encodeText header).length ++
    encodeText header
  have frontLength : front.length = 8 + version.lengthBytes + (encodeText header).length := by
    simp [front, magic, to_le_bytes_length]
    omega
  have middle := middle_of_append front data []
  rw [frontLength, List.append_nil] at middle
  exact middle

theorem header_place_of_file {version : NpyVersion} {header : Text} {data : List UInt8}
    (fits : (encodeText header).length < 256 ^ version.lengthBytes) : headerPlace (npyFile version header data) =
      .ok ((encodeText header).length, 8 + version.lengthBytes) := by
  have length := npy_file_length version header data
  have lengthField : ((npyFile version header data).take (8 + version.lengthBytes)).drop 8 =
      toLeBytes version.lengthBytes (encodeText header).length := by
    have middle := middle_of_append (magic ++ [version.major, 0])
      (toLeBytes version.lengthBytes (encodeText header).length) (encodeText header ++ data)
    rw [to_le_bytes_length, ← List.append_assoc] at middle
    exact middle
  have number := le_bytes_to_le_bytes fits
  rw [← lengthField] at number
  have major : (npyFile version header data).getD 6 0 = version.major := rfl
  have long (wide : 4 ≤ version.lengthBytes) : ¬(npyFile version header data).length < 12 := by
    omega
  unfold headerPlace
  rw [major]
  cases version with
  | one =>
    simp only [NpyVersion.lengthBytes] at number
    simp [NpyVersion.major, NpyVersion.lengthBytes, number]
  | two | three =>
    simp only [NpyVersion.lengthBytes] at number
    simp [NpyVersion.major, NpyVersion.lengthBytes, number, long (Nat.le_refl 4)]

theorem header_text_of_file (utf8Error : List UInt8 → String) {version : NpyVersion}
    {header : Text} {data : List UInt8} (fits : (encodeText header).length < 256 ^ version.lengthBytes) :
    headerText utf8Error (npyFile version header data) =
      .ok (header, 8 + version.lengthBytes + (encodeText header).length) := by
  let front := magic ++ [version.major, 0] ++ toLeBytes version.lengthBytes (encodeText header).length
  have frontLength : front.length = 8 + version.lengthBytes := by
    simp [front, magic, to_le_bytes_length]
    omega
  have length := npy_file_length version header data
  have bound : 2 ≤ version.lengthBytes ∧ version.lengthBytes ≤ 4 := by cases version <;> decide
  have small : 8 + version.lengthBytes + (encodeText header).length < usizeLimit := by
    have power : 256 ^ version.lengthBytes ≤ 256 ^ 4 := Nat.pow_le_pow_right (by decide) bound.2
    have limit : 256 ^ 4 + 100 < usizeLimit := by decide
    omega
  have range : getRange (npyFile version header data) (8 + version.lengthBytes)
      (8 + version.lengthBytes + (encodeText header).length) = some (encodeText header) := by
    have middle := middle_of_append front (encodeText header) data
    rw [frontLength] at middle
    rw [getRange, if_pos ⟨by omega, by omega⟩]
    exact congrArg some middle
  have decoded : fromUtf8 utf8Error (encodeText header) = .ok header := from_utf8_eq_ok.mpr rfl
  have isMagic : (npyFile version header data).take 6 = magic := rfl
  unfold headerText
  rw [ensure, if_pos (by omega), ok_bind, ensure, if_pos isMagic, ok_bind,
    header_place_of_file fits, ok_bind]
  dsimp only
  rw [checkedAdd, if_pos small, okOr, ok_bind, range, okOr, ok_bind, decoded]
  rfl

end Panoptikon.Embedding
