import Panoptikon.Embedding.OutputFields
import Panoptikon.Embedding.RoundTrip

/-!
# Two decoders of embeddings

The output side and the search side read the same file. Where the output side
reads the header at all they agree on the first row, unless it holds a subnormal
half, whose exponent the search side gets one too low.
-/

namespace Panoptikon.Embedding.Output

open Foundation BinaryFormat

theorem normalize_add (fuel mant : Nat) (exp more : Int) :
    normalize fuel mant (exp + more) = ((normalize fuel mant exp).1, (normalize fuel mant exp).2 + more) := by
  induction fuel generalizing mant exp with
  | zero => rfl
  | succ fuel ih =>
    unfold normalize
    split
    · rw [show exp + more - 1 = exp - 1 + more by omega]
      exact ih (mant * 2) (exp - 1)
    · rfl

section Half

variable {bits : Nat} (small : bits < 2 ^ 16)

include small

theorem sign_shift : bits >>> 15 = bits >>> 15 &&& 0x1 := by
  have field : bits >>> 15 &&& 0x1 = bits >>> 15 % 2 := Nat.and_two_pow_sub_one_eq_mod _ 1
  rw [field, Nat.shiftRight_eq_div_pow]
  omega

theorem f16_agrees (normal : ¬Subnormal bits) : f16ToF32 bits = Embedding.f16ToF32 bits := by
  unfold f16ToF32 Embedding.f16ToF32
  dsimp only
  rw [← sign_shift small]
  by_cases zero : bits >>> 10 &&& 0x1f = 0
  · have noMant : bits &&& 0x3ff = 0 := by
      by_contra some
      rw [exponent_field] at zero
      rw [mantissa_field] at some
      exact normal ⟨zero, some⟩
    rw [if_pos zero, if_pos zero, if_pos noMant, if_pos noMant]
  · rw [if_neg zero, if_neg zero]
    by_cases top : bits >>> 10 &&& 0x1f = 0x1f
    · rw [if_pos top, if_pos top]
      by_cases none : bits &&& 0x3ff = 0
      · rw [if_pos none, none, Nat.zero_shiftLeft]
      · rw [if_neg none]
    · rw [if_neg top, if_neg top]
      simp

theorem f16_subnormal (subnormal : Subnormal bits) : f16ToF32 bits = Embedding.f16ToF32 bits + 2 ^ 23 := by
  have mantSmall := fraction_lt bits
  have positive := Nat.pos_of_ne_zero subnormal.2
  obtain ⟨shift, bound, same, least, most⟩ :=
    normalize_shifts 10 (half.fraction bits) (-1) (by omega) (by omega)
  have lower : normalize 10 (half.fraction bits) (-14) =
      (half.fraction bits * 2 ^ shift, (-1 : Int) - shift + -13) := by
    have added := normalize_add 10 (half.fraction bits) (-1) (-13)
    rw [same] at added
    exact added
  have low : half.fraction bits * 2 ^ shift &&& 0x3ff < 2 ^ 10 := by
    rw [show half.fraction bits * 2 ^ shift &&& 0x3ff = half.fraction bits * 2 ^ shift % 2 ^ 10 from
      Nat.and_two_pow_sub_one_eq_mod _ 10]
    exact Nat.mod_lt _ (by decide)
  have lowExponent : ((-1 : Int) - shift + 1 + 127 - 15).toNat = 112 - shift := by omega
  have highExponent : ((-1 : Int) - shift + -13 + 127).toNat = 113 - shift := by omega
  unfold f16ToF32 Embedding.f16ToF32
  dsimp only
  rw [← sign_shift small, exponent_field, mantissa_field, if_pos subnormal.1, if_neg subnormal.2, if_pos subnormal.1,
    if_neg subnormal.2, lower, same]
  dsimp only
  rw [lowExponent, highExponent, fields_add (by omega) low, fields_add (by omega) low]
  omega

theorem f16_agrees_iff : f16ToF32 bits = Embedding.f16ToF32 bits ↔ ¬Subnormal bits := by
  constructor
  · intro same subnormal
    rw [f16_subnormal small subnormal] at same
    omega
  · exact f16_agrees small

end Half

/-- A little-endian array of floats, row by row; its bytes as stored. -/
structure FloatArray where
  float : FloatType
  rows : Option Nat
  columns : Nat
  data : List UInt8
  sized : data.length = rows.getD 1 * columns * float.elemSize
  /-- Dimensions are signed words. -/
  addressable : ∀ dim ∈ rows.toList ++ [columns], dim < isizeLimit

namespace FloatArray

def shape (array : FloatArray) : List Nat := array.rows.toList ++ [array.columns]

theorem descr_typed (float : FloatType) : (∀ char ∈ float.descr, char ∉ ['\'', '"', '(', ')', ',']) ∧
    ∀ char ∈ float.descr.head?, char ∉ ['d', 'f', 's'] := by
  cases float <;> simp [FloatType.descr]

def headerValues (array : FloatArray) : HeaderValues :=
  ⟨array.float.descr, (descr_typed array.float).1, (descr_typed array.float).2, false, array.shape⟩

def header (array : FloatArray) (spelling : HeaderSpelling) : Text := spelling.header array.headerValues

def file (array : FloatArray) (spelling : HeaderSpelling) (version : NpyVersion) : List UInt8 :=
  npyFile version (array.header spelling) array.data

/-- The bytes of an element. -/
def chunk (array : FloatArray) (index : Nat) : List UInt8 :=
  (array.data.drop (index * array.float.elemSize)).take array.float.elemSize

/-- The version can hold the length of the header, and memory the file. -/
structure Storable (array : FloatArray) (spelling : HeaderSpelling) (version : NpyVersion) : Prop where
  header : (encodeText (array.header spelling)).length < 256 ^ version.lengthBytes
  file : (array.file spelling version).length < isizeLimit

section

variable {array : FloatArray} {spelling : HeaderSpelling} {version : NpyVersion}

theorem elem_size_pos (float : FloatType) : 0 < float.elemSize := by
  cases float with
  | f2 | f4 | f8 => decide

theorem shape_dims (array : FloatArray) : array.shape.length = 1 ∨ array.shape.length = 2 := by
  unfold shape
  cases array.rows <;> simp

theorem shape_prod (array : FloatArray) : array.shape.prod = array.rows.getD 1 * array.columns := by
  unfold shape
  cases array.rows <;> simp

theorem columns_le (nonempty : array.rows ≠ some 0) : array.columns ≤ array.shape.prod := by
  rw [shape_prod]
  cases isRows : array.rows with
  | none => exact Nat.le_of_eq (Nat.one_mul _).symm
  | some rows =>
    apply Nat.le_mul_of_pos_left
    apply Nat.pos_of_ne_zero
    rintro rfl
    exact nonempty isRows

theorem data_length (array : FloatArray) : array.data.length = array.shape.prod * array.float.elemSize := by
  rw [array.sized, shape_prod]

theorem file_parts (storable : array.Storable spelling version) :
    array.shape.prod * array.float.elemSize < isizeLimit ∧ Addressable (array.header spelling) := by
  have length := npy_file_length version (array.header spelling) array.data
  have bounded := storable.file
  have headerLength : (encodeText (array.header spelling)).length =
      (array.header spelling).byteLength := by
    simp [encodeText, Text.byteLength, List.length_flatMap]
  rw [data_length, headerLength] at length
  unfold file at bounded
  exact ⟨by omega, by unfold Addressable; omega⟩

theorem dims_small (array : FloatArray) : ∀ dim ∈ array.shape, dim < usizeLimit := by
  have limits : isizeLimit < usizeLimit := by decide
  intro dim isDim
  exact lt_trans (array.addressable dim isDim) limits

/-- Where the data starts. -/
def dataOffset (array : FloatArray) (spelling : HeaderSpelling) (version : NpyVersion) : Nat :=
  8 + version.lengthBytes + (encodeText (array.header spelling)).length

theorem data_placed (array : FloatArray) (spelling : HeaderSpelling) (version : NpyVersion) :
    ((array.file spelling version).take (array.dataOffset spelling version + array.data.length)).drop
      (array.dataOffset spelling version) = array.data :=
  data_of_file _ _ _

/-- What the search side makes of an element. -/
def searched (float : FloatType) (chunk : List UInt8) : Nat :=
  match float with
  | .f2 => Embedding.f16ToF32 (leBytes chunk)
  | .f4 => leBytes chunk
  | .f8 => doubleAsF32 (leBytes chunk)

theorem chunk_length {index : Nat} (inside : index < array.shape.prod) :
    (array.chunk index).length = array.float.elemSize := by
  have enough : (index + 1) * array.float.elemSize ≤ array.data.length := by
    rw [data_length]
    exact Nat.mul_le_mul_right _ inside
  rw [chunk, List.length_take, List.length_drop]
  rw [Nat.add_mul, Nat.one_mul] at enough
  omega

theorem parse_scalar_chunk {index : Nat} (inside : index < array.shape.prod) :
    parseScalar (array.chunk index) ⟨.float, array.float.elemSize⟩ true =
      .ok (searched array.float (array.chunk index)) := by
  have length := chunk_length inside
  cases isFloat : array.float with
  | f2 | f4 | f8 =>
    rw [isFloat] at length
    simp [parseScalar, FloatType.elemSize, readUnsigned, length, searched]

variable (utf8Error : List UInt8 → String)

theorem lay_out_array (storable : array.Storable spelling version) :
    layOut utf8Error (array.file spelling version) =
      .ok ⟨⟨⟨.float, array.float.elemSize⟩, true, false, array.shape, array.dataOffset spelling version⟩,
        array.data⟩ := by
  have isType : parseDescr array.headerValues.descr = .ok (⟨.float, array.float.elemSize⟩, true) := by
    change parseDescr array.float.descr = _
    cases array.float <;> rfl
  have dims := array.shape_dims
  exact HeaderSpelling.lay_out_file spelling array.headerValues utf8Error isType
    ⟨show array.shape.length ≤ 2 by omega, by simp [headerValues, shape]⟩ array.dims_small (elem_size_pos _)
    array.data_length storable.header storable.file

theorem search_first_row (storable : array.Storable spelling version)
    (nonempty : array.rows ≠ some 0) : parseNpyF32 utf8Error (array.file spelling version) =
      if array.columns * 4 < isizeLimit then
        .ok ((List.range array.columns).map fun index => searched array.float (array.chunk index))
      else .error (.panic .capacity) := by
  obtain ⟨dataSmall, -⟩ := file_parts storable
  have limits : isizeLimit < usizeLimit := by decide
  have rowLen (header : NpyHeader) (isShape : header.shape = array.shape) : header.rowLen = array.columns := by
    unfold NpyHeader.rowLen
    rw [isShape, shape]
    cases array.rows <;> simp
  have wide := columns_le nonempty
  unfold parseNpyF32
  rw [lay_out_array utf8Error storable, ok_bind, rowLen _ rfl, withCapacity]
  split
  · rw [ok_bind]
    apply mapM_returns
    intro index member
    have inside : index < array.shape.prod := Nat.lt_of_lt_of_le (List.mem_range.mp member) wide
    have below : index * array.float.elemSize + array.float.elemSize ≤ array.data.length := by
      rw [data_length, ← Nat.succ_mul]
      exact Nat.mul_le_mul_right _ inside
    rw [data_length] at below
    have start : usizeMul index array.float.elemSize = .ok (index * array.float.elemSize) := if_pos (by omega)
    have slice : getRange array.data (index * array.float.elemSize)
        (index * array.float.elemSize + array.float.elemSize) = some (array.chunk index) := by
      rw [getRange, if_pos ⟨Nat.le_add_right _ _, by rw [data_length]; exact below⟩, chunk, List.drop_take,
        Nat.add_sub_cancel_left]
    have place : NpyHeader.elementIndex
        ⟨⟨.float, array.float.elemSize⟩, true, false, array.shape, array.dataOffset spelling version⟩ index =
          .ok index := if_pos (.inr rfl)
    unfold Layout.readElement
    dsimp only
    rw [place, ok_bind, start, ok_bind, usize_add_of_lt (by omega), ok_bind, slice, okOr, ok_bind]
    exact parse_scalar_chunk inside
  · rfl

theorem place_agrees {buffer : List UInt8} {place : Nat × Nat}
    (found : Embedding.headerPlace buffer = .ok place) : headerPlace buffer = .ok place := by
  unfold Embedding.headerPlace at found
  unfold headerPlace
  dsimp only at found ⊢
  split at found
  · rename_i one
    rw [if_pos one]
    exact found
  · rename_i notOne
    rw [if_neg notOne]
    split at found
    · rename_i two
      rw [if_pos two]
      split at found
      · cases found
      · rename_i long
        rw [if_neg long]
        exact found
    · cases found

theorem header_text_array (storable : array.Storable spelling version) : headerText (array.file spelling version) =
      .ok (array.header spelling, array.dataOffset spelling version) := by
  have searchText := @header_text_of_file (fun _ => "") version _ array.data storable.header
  change Embedding.headerText _ (array.file spelling version) = _ at searchText
  unfold Embedding.headerText at searchText
  obtain ⟨_, long, searchText⟩ := bind_ok searchText
  obtain ⟨_, isMagic, searchText⟩ := bind_ok searchText
  obtain ⟨place, isPlace, searchText⟩ := bind_ok searchText
  obtain ⟨headerEnd, isEnd, searchText⟩ := bind_ok searchText
  obtain ⟨headerBytes, isRange, searchText⟩ := bind_ok searchText
  obtain ⟨text, decoded, searchText⟩ := bind_ok searchText
  rw [ensure_eq_ok] at long isMagic
  obtain ⟨fits, rfl⟩ := checked_eq_some.mp (ok_or_eq_ok.mp isEnd)
  have range := ok_or_eq_ok.mp isRange
  have inside := (get_range_length range).2.1
  rw [getRange, if_pos ⟨(get_range_length range).1, inside⟩] at range
  have utf8 : fromUtf8 headerBytes = .ok text := by
    unfold Embedding.fromUtf8 at decoded
    unfold fromUtf8
    cases isText : String.fromUTF8? ⟨headerBytes.toArray⟩ with
    | none =>
      rw [isText] at decoded
      cases decoded
    | some string =>
      rw [isText] at decoded
      cases decoded
      rfl
  have same : (text, place.2 + place.1) = (array.header spelling, array.dataOffset spelling version) :=
    Except.ok.inj searchText
  unfold headerText
  rw [ensure, if_pos ⟨long, isMagic⟩, ok_bind, place_agrees isPlace, ok_bind, usize_add_of_lt fits, ok_bind, ensure,
    if_pos inside, ok_bind, Option.some.inj range, utf8, ok_bind, ← same]
  rfl

theorem product_fits {shape : List Nat} (dims : shape.length = 1 ∨ shape.length = 2)
    (small : ∀ dim ∈ shape, dim < usizeLimit) (fits : shape.prod < usizeLimit) :
    shape.foldlM usizeMul 1 = .ok shape.prod := by
  have product := @shape_product shape ?_ ?_ small
  · rw [if_pos fits] at product
    exact product
  · rintro rfl
    rcases dims with absent | absent
    · cases absent
    · cases absent
  · omega

/-- The elements of an array. -/
def values (array : FloatArray) : List Nat :=
  (List.range array.shape.prod).map fun index => array.float.decode (array.chunk index)

theorem parse_npy_array (storable : array.Storable spelling version) (readable : spelling.Readable) :
    parseNpy (array.file spelling version) =
      if array.shape.prod * 4 < isizeLimit then .ok (array.shape, array.values)
      else .error (.panic .capacity) := by
  obtain ⟨dataSmall, headerSmall⟩ := file_parts storable
  have limits : isizeLimit < usizeLimit := by decide
  have positive := elem_size_pos array.float
  have least := Nat.le_mul_of_pos_right array.shape.prod positive
  have length := npy_file_length version (array.header spelling) array.data
  have fileLength : (array.file spelling version).length =
      array.dataOffset spelling version + array.data.length := length
  have bounded := storable.file
  have elements : array.shape.prod * array.float.elemSize / array.float.elemSize = array.shape.prod :=
    Nat.mul_div_cancel _ positive
  have chunks : (chunksExact array.float.elemSize array.data).map array.float.decode = array.values := by
    rw [chunksExact, data_length, elements, List.map_map]
    rfl
  have total : usizeMul array.shape.prod array.float.elemSize = .ok array.data.length := by
    rw [data_length]
    exact if_pos (by omega)
  have fields : parseFields (array.header spelling) = .ok (array.float, array.shape) :=
    HeaderSpelling.output_fields spelling array.headerValues rfl rfl headerSmall (by simp [headerValues, shape])
      array.dims_small readable
  unfold parseNpy
  rw [header_text_array storable, ok_bind]
  dsimp only
  rw [fields, ok_bind]
  unfold readData
  dsimp only
  rw [product_fits array.shape_dims array.dims_small (by omega), ok_bind, total, ok_bind,
    usize_add_of_lt (by omega), ok_bind, ensure, if_pos (by omega), ok_bind, data_placed, chunks, data_length,
    elements, withCapacity]
  split
  · rfl
  · rfl

/-- The capacities the output side asks for. -/
structure Room (array : FloatArray) : Prop where
  elements : array.shape.prod * 4 < isizeLimit
  vectors : ∀ rows, array.rows = some rows → rows * vecSize < isizeLimit

theorem values_length (array : FloatArray) : array.values.length = array.shape.prod := by
  rw [values, List.length_map, List.length_range]

/-- The rows of the output side, the first of which holds the first elements. -/
theorem parse_rows_array (storable : array.Storable spelling version) (readable : spelling.Readable)
    (room : array.Room) : ∃ rows, parseNpyToF32Rows (array.file spelling version) = .ok rows ∧
      rows.head? = if array.rows = some 0 then none else some (array.values.take array.columns) := by
  obtain ⟨dataSmall, -⟩ := file_parts storable
  have limits : isizeLimit < usizeLimit := by decide
  have least := Nat.le_mul_of_pos_right array.shape.prod (elem_size_pos array.float)
  have length := array.values_length
  have parsed := parse_npy_array storable readable
  rw [if_pos room.elements] at parsed
  cases isRows : array.rows with
  | none =>
    have isShape : array.shape = [array.columns] := by
      rw [shape, isRows]
      rfl
    rw [isShape, List.prod_singleton] at length
    refine ⟨[array.values], ?_, ?_⟩
    · unfold parseNpyToF32Rows
      rw [parsed, isShape]
      rfl
    · rw [if_neg (Option.some_ne_none 0).symm, ← length, List.take_length]
      rfl
  | some rows =>
    have isShape : array.shape = [rows, array.columns] := by
      rw [shape, isRows]
      rfl
    have product : array.shape.prod = rows * array.columns := by
      rw [shape_prod, isRows, Option.getD_some]
    have cells : usizeMul rows array.columns = .ok array.values.length := by
      rw [length, product]
      exact if_pos (by omega)
    have slices : (List.range rows).mapM (rowSlice array.values array.columns) =
        .ok ((List.range rows).map fun row => (array.values.drop (row * array.columns)).take array.columns) := by
      apply mapM_returns
      intro row member
      have inside : row * array.columns + array.columns ≤ array.values.length := by
        rw [length, product, ← Nat.succ_mul]
        exact Nat.mul_le_mul_right _ (List.mem_range.mp member)
      have start : usizeMul row array.columns = .ok (row * array.columns) := if_pos (by omega)
      unfold rowSlice
      rw [start, ok_bind, usize_add_of_lt (by omega), ok_bind, if_pos inside]
      rfl
    refine ⟨(List.range rows).map fun row => (array.values.drop (row * array.columns)).take array.columns, ?_, ?_⟩
    · unfold parseNpyToF32Rows
      rw [parsed, isShape]
      change (usizeMul rows array.columns >>= _) = _
      rw [cells, ok_bind, ensure, if_pos rfl, ok_bind, rowsCapacity, if_pos (room.vectors rows isRows), ok_bind]
      exact slices
    · cases rows with
      | zero => rw [if_pos rfl, List.range_zero, List.map_nil, List.head?_nil]
      | succ rows =>
        rw [if_neg (by simp), List.range_succ_eq_map, List.map_cons, List.head?_cons, Nat.zero_mul, List.drop_zero]

theorem parse_rows_full (storable : array.Storable spelling version)
    (returned : ∃ rows, parseNpyToF32Rows (array.file spelling version) = .ok rows) :
    spelling.Readable ∧ array.Room := by
  obtain ⟨rows, isRows⟩ := returned
  have readable : spelling.Readable := by
    unfold parseNpyToF32Rows parseNpy at isRows
    rw [header_text_array storable, ok_bind] at isRows
    obtain ⟨_, isRead, -⟩ := bind_ok isRows
    obtain ⟨fields, isFields, -⟩ := bind_ok isRead
    exact HeaderSpelling.readable_of_fields spelling array.headerValues (file_parts storable).2 isFields
  have parsed := parse_npy_array storable readable
  refine ⟨readable, ?_⟩
  unfold parseNpyToF32Rows at isRows
  split at parsed
  · rename_i elements
    refine ⟨elements, ?_⟩
    intro count isCount
    have isShape : array.shape = [count, array.columns] := by
      rw [shape, isCount]
      rfl
    rw [parsed, isShape] at isRows
    change (usizeMul count array.columns >>= _) = _ at isRows
    obtain ⟨_, -, isRows⟩ := bind_ok isRows
    obtain ⟨_, -, isRows⟩ := bind_ok isRows
    obtain ⟨_, capacity, -⟩ := bind_ok isRows
    rw [rowsCapacity] at capacity
    split at capacity
    · rename_i fits
      exact fits
    · cases capacity
  · rw [parsed] at isRows
    cases isRows

/-- The rows are returned, and the first of them is the search side's. -/
def Agrees (utf8Error : List UInt8 → String) (buffer : List UInt8) : Prop :=
  ∃ rows, parseNpyToF32Rows buffer = .ok rows ∧ ∀ first, rows.head? = some first →
    parseNpyF32 utf8Error buffer = .ok first

/-- A subnormal half in the first row. -/
def HoldsSubnormal (array : FloatArray) : Prop :=
  array.float = .f2 ∧ ∃ index < array.columns, Subnormal (leBytes (array.chunk index))

theorem le_bytes_lt (bytes : List UInt8) : leBytes bytes < 256 ^ bytes.length := by
  induction bytes with
  | nil => exact Nat.one_pos
  | cons byte rest ih =>
    have small := byte.toNat_lt
    change byte.toNat + 256 * leBytes rest < 256 ^ (rest.length + 1)
    rw [pow_succ]
    omega

theorem decode_eq_iff {index : Nat} (inside : index < array.shape.prod) :
    array.float.decode (array.chunk index) = searched array.float (array.chunk index) ↔
      ¬(array.float = .f2 ∧ Subnormal (leBytes (array.chunk index))) := by
  have length := chunk_length inside
  cases isFloat : array.float with
  | f2 =>
    have small := le_bytes_lt (array.chunk index)
    rw [length, isFloat] at small
    rw [← isFloat]
    simp only [FloatType.decode, searched, isFloat, true_and]
    exact f16_agrees_iff small
  | f4 | f8 => simp [FloatType.decode, searched]

theorem first_row_eq_iff (nonempty : array.rows ≠ some 0) : array.values.take array.columns =
        ((List.range array.columns).map fun index => searched array.float (array.chunk index)) ↔
      ¬array.HoldsSubnormal := by
  have wide := columns_le nonempty
  have front : array.values.take array.columns =
      (List.range array.columns).map fun index => array.float.decode (array.chunk index) := by
    rw [values, ← List.map_take, List.take_range, Nat.min_eq_left wide]
  rw [front, List.map_inj_left, HoldsSubnormal, not_and, not_exists]
  constructor
  · intro same isHalf index
    rintro ⟨inside, subnormal⟩
    exact (decode_eq_iff (Nat.lt_of_lt_of_le inside wide)).mp (same index (List.mem_range.mpr inside)) ⟨isHalf, subnormal⟩
  · intro plain index isIndex
    have inside := List.mem_range.mp isIndex
    apply (decode_eq_iff (Nat.lt_of_lt_of_le inside wide)).mpr
    rintro ⟨isHalf, subnormal⟩
    exact plain isHalf index ⟨inside, subnormal⟩

theorem empty_plain (empty : array.rows = some 0) : ¬array.HoldsSubnormal := by
  rintro ⟨-, index, -, subnormal⟩
  have none : array.data = [] := by
    rw [← List.length_eq_zero_iff, array.sized, empty, Option.getD_some, Nat.zero_mul, Nat.zero_mul]
  rw [chunk, none, List.drop_nil, List.take_nil] at subnormal
  exact absurd subnormal (by decide)

theorem agrees_iff (storable : array.Storable spelling version) :
    Agrees utf8Error (array.file spelling version) ↔ spelling.Readable ∧ array.Room ∧ ¬array.HoldsSubnormal := by
  constructor
  · rintro ⟨rows, isRows, first⟩
    obtain ⟨readable, room⟩ := parse_rows_full storable ⟨rows, isRows⟩
    refine ⟨readable, room, ?_⟩
    obtain ⟨others, isOthers, head⟩ := parse_rows_array storable readable room
    rw [isRows] at isOthers
    cases isOthers
    by_cases empty : array.rows = some 0
    · exact empty_plain empty
    · rw [if_neg empty] at head
      have searchedRow := first _ head
      rw [search_first_row utf8Error storable empty] at searchedRow
      split at searchedRow
      · exact (first_row_eq_iff empty).mp (Except.ok.inj searchedRow).symm
      · cases searchedRow
  · rintro ⟨readable, room, plain⟩
    obtain ⟨rows, isRows, head⟩ := parse_rows_array storable readable room
    refine ⟨rows, isRows, ?_⟩
    intro first isFirst
    by_cases empty : array.rows = some 0
    · rw [head, if_pos empty] at isFirst
      cases isFirst
    · rw [head, if_neg empty] at isFirst
      have capacity : array.columns * 4 < isizeLimit := by
        have elements := room.elements
        have wide := columns_le empty
        omega
      rw [search_first_row utf8Error storable empty, if_pos capacity, ← Option.some.inj isFirst,
        (first_row_eq_iff empty).mpr plain]

end

end FloatArray

end Panoptikon.Embedding.Output
