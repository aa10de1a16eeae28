import Mathlib.Tactic.NormNum
import Mathlib.Tactic.Ring
import Panoptikon.Embedding.Encoding

/-!
# When decoding an embedding is safe

Behind the header three things can go wrong: the product of the shape, a row
that a shape without elements or elements without bytes make longer than the
data, and a row no allocation can hold. Everything else is in bounds, since an
element of the row lies in the data.
-/

namespace Panoptikon.Embedding

open Foundation

section Header

variable {utf8Error : List UInt8 → String}

theorem parse_digits_lt {digits : Text} {value : Nat} (parsed : parseDigits digits = some value) :
    value < usizeLimit := by
  unfold parseDigits at parsed
  have bounded : ∀ (rest : Text) (start : Nat), start < usizeLimit →
      rest.foldlM (fun value digit =>
        if digit.isDigit then
          let next := value * 10 + (digit.toNat - '0'.toNat)
          if next < usizeLimit then some next else none
        else none) start = some value → value < usizeLimit := by
    intro rest
    induction rest with
    | nil =>
      rintro start small ⟨⟩
      exact small
    | cons digit rest ih =>
      intro start _ folded
      rw [List.foldlM_cons] at folded
      obtain ⟨next, isNext, later⟩ := Option.bind_eq_some_iff.mp folded
      split at isNext
      · dsimp only at isNext
        split at isNext
        · rename_i small
          cases isNext
          exact ih _ small later
        · cases isNext
      · cases isNext
  exact bounded digits 0 (by decide) parsed

theorem parse_usize_lt {text : Text} {value : Nat} (parsed : parseUsize text = some value) :
    value < usizeLimit := by
  unfold parseUsize at parsed
  split at parsed
  · cases parsed
  · cases parsed
  · exact parse_digits_lt parsed
  · exact parse_digits_lt parsed

theorem parse_parts_lt : ∀ {parts : List Text} {shape : List Nat},
    parseParts parts = some shape → ∀ dim ∈ shape, dim < usizeLimit
  | [], shape, parsed => by
      cases parsed
      exact nofun
  | part :: rest, shape, parsed => by
      unfold parseParts at parsed
      split at parsed
      · exact parse_parts_lt parsed
      · obtain ⟨value, isValue, parsed⟩ := Option.bind_eq_some_iff.mp parsed
        obtain ⟨values, isRest, parsed⟩ := Option.bind_eq_some_iff.mp parsed
        cases parsed
        exact List.forall_mem_cons.mpr ⟨parse_usize_lt isValue, parse_parts_lt isRest⟩

theorem parse_shape_lt {header : Text} {shape : List Nat}
    (parsed : parseShape header = .ok (some shape)) : ∀ dim ∈ shape, dim < usizeLimit := by
  unfold parseShape at parsed
  obtain ⟨found, _, parsed⟩ := bind_ok parsed
  split at parsed
  · cases parsed
  · split at parsed
    · obtain ⟨_, _, parsed⟩ := bind_ok parsed
      obtain ⟨inner, _, parsed⟩ := bind_ok parsed
      exact parse_parts_lt (Except.ok.inj parsed)
    · cases parsed

theorem parse_descr_lt {descr : Text} {dtype : NpyDtype} {littleEndian : Bool}
    (parsed : parseDescr descr = .ok (dtype, littleEndian)) : dtype.size < usizeLimit := by
  unfold parseDescr at parsed
  split at parsed
  · cases parsed
    decide
  · split at parsed
    · cases parsed
    · split at parsed
      · cases parsed
      · obtain ⟨_, _, parsed⟩ := bind_ok parsed
        split at parsed
        · cases parsed
        · obtain ⟨size, isSize, parsed⟩ := bind_ok parsed
          obtain ⟨_, _, parsed⟩ := bind_ok parsed
          cases parsed
          exact parse_usize_lt (ok_or_eq_ok.mp isSize)

/-- What holds of every header that parses. -/
structure HeaderInside (buffer : List UInt8) (header : NpyHeader) : Prop where
  offset : header.dataOffset ≤ buffer.length
  dims : ∀ dim ∈ header.shape, dim < usizeLimit
  size : header.dtype.size < usizeLimit

variable {buffer : List UInt8} {header : NpyHeader}

theorem header_inside (parsed : parseNpyHeader utf8Error buffer = .ok header) : HeaderInside buffer header := by
  obtain ⟨⟨text, offset⟩, isText, fields⟩ := bind_ok parsed
  obtain ⟨_, _, fields⟩ := bind_ok fields
  obtain ⟨_, _, fields⟩ := bind_ok fields
  obtain ⟨_, _, fields⟩ := bind_ok fields
  obtain ⟨_, _, fields⟩ := bind_ok fields
  obtain ⟨_, isShape, fields⟩ := bind_ok fields
  obtain ⟨shape, some_, fields⟩ := bind_ok fields
  obtain ⟨⟨dtype, littleEndian⟩, isDescr, fields⟩ := bind_ok fields
  cases fields
  rw [ok_or_eq_ok.mp some_] at isShape
  exact ⟨(header_text_inside isText).2, parse_shape_lt isShape, parse_descr_lt isDescr⟩

/-- The texts of the header can be read as far as they are reached. -/
def HeaderReadable (utf8Error : List UInt8 → String) (buffer : List UInt8) : Prop :=
  ∀ header offset, headerText utf8Error buffer = .ok (header, offset) → ShapeReadable header

theorem parse_npy_header_faultless_iff (buffer : Bytes) : Faultless (parseNpyHeader utf8Error buffer.list) ↔
      HeaderReadable utf8Error buffer.list := by
  have fields : ∀ header offset, headerText utf8Error buffer.list = .ok (header, offset) →
      (Faultless (parseFields header offset) ↔ ShapeReadable header) :=
    fun header offset isText => parse_fields_faultless_iff
      (Nat.lt_of_le_of_lt (header_text_inside isText).1 buffer.bounded) offset
  unfold parseNpyHeader HeaderReadable
  rw [faultless_bind]
  constructor
  · rintro ⟨-, all⟩ header offset isText
    exact (fields header offset isText).mp (all (header, offset) isText)
  · refine fun readable => ⟨header_text_faultless, ?_⟩
    rintro ⟨header, offset⟩ isText
    exact (fields header offset isText).mpr (readable header offset isText)

/-- One or two dimensions, and the data is there. -/
structure Present (header : NpyHeader) (buffer : List UInt8) : Prop where
  some : header.shape ≠ []
  flat : header.shape.length ≤ 2
  there : header.shape.prod * header.dtype.size ≤ buffer.length - header.dataOffset

theorem shape_product {shape : List Nat} (some : shape ≠ []) (flat : shape.length ≤ 2)
    (dims : ∀ dim ∈ shape, dim < usizeLimit) : shapeProduct shape =
      if shape.prod < usizeLimit then .ok shape.prod else .error (.panic .overflow) := by
  match shape, some, flat, dims with
  | [dim], _, _, dims =>
    have small := dims dim List.mem_cons_self
    simp [shapeProduct, usizeMul, small]
  | [rows, columns], _, _, dims =>
    have small := dims rows List.mem_cons_self
    simp [shapeProduct, usizeMul, small]

theorem checked_eq_some {limit left right : Nat} :
    (if left < limit then some left else none) = some right ↔ left < limit ∧ left = right := by
  split <;> simp [*]

theorem ensure_eq_ok {condition : Prop} [Decidable condition] {message : String} {done : Unit} :
    ensure condition message = .ok done ↔ condition := by
  unfold ensure
  split
  · simp [*]
  · exact iff_of_false (fun same => by cases same) ‹_›

theorem lay_out_eq_ok (buffer : Bytes) {layout : Layout} : layOut utf8Error buffer.list = .ok layout ↔
      parseNpyHeader utf8Error buffer.list = .ok layout.header ∧
        Present layout.header buffer.list ∧ layout.header.shape.prod < usizeLimit ∧
        layout.data = (buffer.list.take (layout.header.dataOffset +
          layout.header.shape.prod * layout.header.dtype.size)).drop layout.header.dataOffset := by
  have limits : isizeLimit < usizeLimit := by decide
  have bounded := buffer.bounded
  unfold layOut
  constructor
  · intro returned
    obtain ⟨header, parsed, returned⟩ := bind_ok returned
    obtain ⟨_, some_, returned⟩ := bind_ok returned
    obtain ⟨_, flat, returned⟩ := bind_ok returned
    obtain ⟨totalLen, isProduct, returned⟩ := bind_ok returned
    obtain ⟨totalBytes, isTotal, returned⟩ := bind_ok returned
    obtain ⟨stop, isStop, returned⟩ := bind_ok returned
    obtain ⟨data, isData, returned⟩ := bind_ok returned
    cases returned
    have inside := header_inside parsed
    rw [ensure_eq_ok] at some_ flat
    rw [shape_product some_ flat inside.dims] at isProduct
    split at isProduct
    · rename_i small
      cases isProduct
      obtain ⟨_, rfl⟩ := checked_eq_some.mp (ok_or_eq_ok.mp isTotal)
      obtain ⟨_, rfl⟩ := checked_eq_some.mp (ok_or_eq_ok.mp isStop)
      have isRange := ok_or_eq_ok.mp isData
      have range := get_range_length isRange
      rw [getRange, if_pos ⟨range.1, range.2.1⟩] at isRange
      cases isRange
      exact ⟨parsed, ⟨some_, flat, by dsimp only; omega⟩, small, rfl⟩
    · cases isProduct
  · rintro ⟨parsed, present, small, isData⟩
    have inside := header_inside parsed
    have there := present.there
    have offset := inside.offset
    rw [parsed, ok_bind, ensure, if_pos present.some, ok_bind, ensure, if_pos present.flat, ok_bind,
      shape_product present.some present.flat inside.dims, if_pos small, ok_bind, checkedMul,
      if_pos (by omega), okOr, ok_bind, checkedAdd, if_pos (by omega), okOr, ok_bind, getRange,
      if_pos ⟨by omega, by omega⟩, okOr, ok_bind, ← isData]
    rfl

/-- Laying out faults in the header, or in the product of a shape it accepts. -/
theorem lay_out_faultless_iff (buffer : Bytes) :
    Faultless (layOut utf8Error buffer.list) ↔ HeaderReadable utf8Error buffer.list ∧
      ∀ header, parseNpyHeader utf8Error buffer.list = .ok header → header.shape ≠ [] →
        header.shape.length ≤ 2 → header.shape.prod < usizeLimit := by
  unfold layOut
  rw [faultless_bind, parse_npy_header_faultless_iff]
  refine and_congr_right fun _ => forall_congr' fun header => forall_congr' fun parsed => ?_
  simp only [faultless_bind, faultless_ensure, faultless_ok_or, faultless_pure, true_and, and_true,
    implies_true, ensure_eq_ok]
  refine ⟨fun all some flat => ?_, fun all _ some _ flat => ?_⟩
  · have faultless := all () some () flat
    rw [shape_product some flat (header_inside parsed).dims] at faultless
    by_contra large
    rw [if_neg large] at faultless
    exact not_faultless_panic .overflow faultless
  · rw [shape_product some flat (header_inside parsed).dims, if_pos (all some flat)]
    exact faultless_ok _

theorem parse_scalar_faultless (slice : List UInt8) (dtype : NpyDtype) (littleEndian : Bool) :
    Faultless (parseScalar slice dtype littleEndian) := by
  have unsigned (size : Nat) : Faultless (readUnsigned size slice littleEndian) := by
    unfold readUnsigned
    split
    · exact faultless_ok _
    · exact faultless_fail _
  have byte : Faultless (readU8 slice) := faultless_ok_or _ _
  unfold parseScalar
  split <;> simp only [faultless_map, faultless_fail, unsigned, byte]

/-- The row fits the data section, an element counted as one byte at least. -/
def RowFits (header : NpyHeader) (buffer : List UInt8) : Prop :=
  header.rowLen * max header.dtype.size 1 ≤ buffer.length - header.dataOffset

theorem shape_cases (some : header.shape ≠ []) (flat : header.shape.length ≤ 2) :
    (∃ dim, header.shape = [dim] ∧ header.rowLen = dim ∧ header.shape.prod = dim) ∨
      ∃ rows columns, header.shape = [rows, columns] ∧ header.rowLen = columns ∧
        header.shape.prod = rows * columns := by
  match same : header.shape, some, flat with
  | [dim], _, _ => exact Or.inl ⟨dim, rfl, by simp [NpyHeader.rowLen, same], by simp⟩
  | [rows, columns], _, _ =>
    exact Or.inr ⟨rows, columns, rfl, by simp [NpyHeader.rowLen, same], by simp⟩

theorem row_len_le (some : header.shape ≠ []) (flat : header.shape.length ≤ 2) (elements : header.shape.prod ≠ 0) :
    header.rowLen ≤ header.shape.prod := by
  rcases shape_cases some flat with ⟨dim, _, rowLen, product⟩ | ⟨rows, columns, _, rowLen, product⟩
  · rw [rowLen, product]
  · rw [product] at elements
    have positive : 0 < rows := Nat.pos_of_ne_zero (left_ne_zero_of_mul elements)
    rw [rowLen, product]
    exact Nat.le_mul_of_pos_left columns positive

/-- Only a shape without elements, or elements without bytes, make a row too
long for the data. -/
theorem row_fits (present : Present header buffer)
    (elements : header.shape.prod ≠ 0) (bytes : header.dtype.size ≠ 0) : RowFits header buffer := by
  have oneByte : max header.dtype.size 1 = header.dtype.size := by omega
  rw [RowFits, oneByte]
  exact (Nat.mul_le_mul_right _ (row_len_le present.some present.flat elements)).trans present.there

/-- In its row, or where a Fortran array has it, an element ends inside a word. -/
theorem element_in_word {idx elemIndex : Nat}
    (bounded : buffer.length < isizeLimit) (inside : HeaderInside buffer header)
    (present : Present header buffer) (fits : RowFits header buffer) (inRow : idx < header.rowLen)
    (isIndex : header.elementIndex idx = .ok elemIndex) :
    elemIndex * header.dtype.size + header.dtype.size < usizeLimit := by
  have limits : isizeLimit < usizeLimit := by decide
  unfold NpyHeader.elementIndex at isIndex
  split at isIndex
  · cases isIndex
    have rowBytes : (idx + 1) * header.dtype.size ≤ header.rowLen * max header.dtype.size 1 :=
      Nat.mul_le_mul inRow (Nat.le_max_left _ _)
    unfold RowFits at fits
    rw [Nat.add_mul, Nat.one_mul] at rowBytes
    omega
  · rename_i strided
    rw [not_or] at strided
    obtain ⟨_, rfl⟩ := checked_eq_some.mp (ok_or_eq_ok.mp isIndex)
    rcases shape_cases present.some present.flat with
      ⟨dim, shape, _⟩ | ⟨rows, columns, shape, rowLen, product⟩
    · exact absurd (by simp [shape]) strided.1
    · have first : header.shape.getD 0 0 = rows := by simp [shape]
      rw [first]
      by_cases empty : rows = 0
      · have size := inside.size
        rw [empty, Nat.mul_zero, Nat.zero_mul, Nat.zero_add]
        exact size
      · -- The last row of the stride still lies in the data.
        have stride : idx * rows + 1 ≤ rows * columns := by
          rw [rowLen] at inRow
          calc idx * rows + 1 ≤ idx * rows + rows := by omega
            _ = rows * (idx + 1) := by ring
            _ ≤ rows * columns := Nat.mul_le_mul_left rows inRow
        have dataBytes := Nat.mul_le_mul_right header.dtype.size stride
        have there := present.there
        rw [product] at there
        rw [Nat.add_mul, Nat.one_mul] at dataBytes
        omega

theorem read_element_faultless (buffer : Bytes) {layout : Layout} {idx : Nat}
    (laidOut : layOut utf8Error buffer.list = .ok layout)
    (fits : RowFits layout.header buffer.list) (inRow : idx < layout.header.rowLen) :
    Faultless (layout.readElement idx) := by
  obtain ⟨parsed, present, _, _⟩ := (lay_out_eq_ok buffer).mp laidOut
  unfold Layout.readElement
  refine faultless_bind.mpr ⟨?_, fun elemIndex isIndex => ?_⟩
  · unfold NpyHeader.elementIndex
    split
    · exact faultless_ok _
    · exact faultless_ok_or _ _
  · have inWord := element_in_word buffer.bounded (header_inside parsed) present fits inRow isIndex
    simp only [faultless_bind, faultless_usize_mul, faultless_usize_add, faultless_ok_or,
      parse_scalar_faultless, implies_true, and_true]
    refine ⟨by omega, fun start isStart => ?_⟩
    rw [usizeMul, if_pos (by omega)] at isStart
    cases isStart
    exact inWord

/-- No fault, and no room reserved for more elements than the data can hold. -/
structure Safe (utf8Error : List UInt8 → String) (buffer : Bytes) : Prop where
  faultless : Faultless (embeddingFromNpyBytes utf8Error buffer.list)
  reserves : ∀ layout, layOut utf8Error buffer.list = .ok layout →
    RowFits layout.header buffer.list

structure Benign (utf8Error : List UInt8 → String) (buffer : Bytes) : Prop where
  /-- The parentheses of the shape are in order. -/
  readable : HeaderReadable utf8Error buffer.list
  /-- The dimensions multiply to a word. -/
  product : ∀ header, parseNpyHeader utf8Error buffer.list = .ok header → header.shape ≠ [] →
    header.shape.length ≤ 2 → header.shape.prod < usizeLimit
  /-- A row of an array without elements, or of elements without bytes, is no
  longer than the data. -/
  empty : ∀ header, parseNpyHeader utf8Error buffer.list = .ok header → header.shape ≠ [] →
    header.shape.length ≤ 2 → header.shape.prod = 0 ∨ header.dtype.size = 0 →
    RowFits header buffer.list
  /-- A row that is there has a capacity. -/
  allocated : ∀ header, parseNpyHeader utf8Error buffer.list = .ok header →
    Present header buffer.list → header.rowLen * 4 < isizeLimit

theorem present_of_empty (some : header.shape ≠ [])
    (flat : header.shape.length ≤ 2) (empty : header.shape.prod = 0 ∨ header.dtype.size = 0) :
    Present header buffer :=
  ⟨some, flat, by rcases empty with none_ | none_ <;> simp [none_]⟩

/-- Decoding is safe exactly for the benign buffers. -/
theorem safe_iff_benign (utf8Error : List UInt8 → String) (buffer : Bytes) :
    Safe utf8Error buffer ↔ Benign utf8Error buffer := by
  have laidOut : ∀ header, parseNpyHeader utf8Error buffer.list = .ok header →
      Present header buffer.list → header.shape.prod < usizeLimit →
      ∃ layout, layOut utf8Error buffer.list = .ok layout ∧ layout.header = header :=
    fun header parsed present small => ⟨⟨header, (buffer.list.take (header.dataOffset +
      header.shape.prod * header.dtype.size)).drop header.dataOffset⟩,
      (lay_out_eq_ok buffer).mpr ⟨parsed, present, small, rfl⟩, rfl⟩
  constructor
  · rintro ⟨faultless, reserves⟩
    rw [embeddingFromNpyBytes, faultless_map, parseNpyF32, faultless_bind,
      lay_out_faultless_iff] at faultless
    obtain ⟨⟨readable, product⟩, reserved⟩ := faultless
    refine ⟨readable, product, fun header parsed some flat empty => ?_, fun header parsed present => ?_⟩
    · obtain ⟨layout, isLayout, rfl⟩ := laidOut header parsed (present_of_empty some flat empty)
        (product header parsed some flat)
      exact reserves layout isLayout
    · obtain ⟨layout, isLayout, rfl⟩ := laidOut header parsed present
        (product header parsed present.some present.flat)
      have capacity := (faultless_bind.mp (reserved layout isLayout)).1
      rwa [faultless_with_capacity] at capacity
  · rintro ⟨readable, product, empty, allocated⟩
    have fits : ∀ layout, layOut utf8Error buffer.list = .ok layout →
        RowFits layout.header buffer.list := by
      intro layout isLayout
      obtain ⟨parsed, present, _, _⟩ := (lay_out_eq_ok buffer).mp isLayout
      by_cases without : layout.header.shape.prod = 0 ∨ layout.header.dtype.size = 0
      · exact empty _ parsed present.some present.flat without
      · rw [not_or] at without
        exact row_fits present without.1 without.2
    refine ⟨?_, fits⟩
    rw [embeddingFromNpyBytes, faultless_map, parseNpyF32, faultless_bind, lay_out_faultless_iff]
    refine ⟨⟨readable, product⟩, fun layout isLayout => faultless_bind.mpr ⟨?_, fun _ _ => ?_⟩⟩
    · obtain ⟨parsed, present, _, _⟩ := (lay_out_eq_ok buffer).mp isLayout
      exact (faultless_with_capacity _).mpr (allocated _ parsed present)
    · refine faultless_map_m fun idx member => ?_
      exact read_element_faultless buffer isLayout (fits layout isLayout) (List.mem_range.mp member)

end Header

/-- The header of half-precision numbers in a shape. -/
def headerWithShape (shape : String) : Text :=
  ("\x7b'descr': '<f2', 'fortran_order': False, 'shape': " ++ shape ++ ", \x7d").toList

/-- A file without data. -/
def fileWithShape (shape : String) : List UInt8 := npyFile .one (headerWithShape shape) []

theorem file_with_shape_header {shape : String} (fits : (encodeText (headerWithShape shape)).length < 256 ^ 2) :
    parseNpyHeader (fun _ => "") (fileWithShape shape) = parseFields (headerWithShape shape)
      (10 + (encodeText (headerWithShape shape)).length) := by
  have isText : headerText (fun _ => "") (fileWithShape shape) = _ :=
    header_text_of_file _ (show _ < 256 ^ NpyVersion.one.lengthBytes from fits)
  unfold parseNpyHeader
  rw [isText]
  rfl

/-- Parentheses the wrong way round, a product beyond a word, and an array
without elements whose rows have 2^40 or 2^63 - 1. -/
theorem unsafe_shapes :
    embeddingFromNpyBytes (fun _ => "") (fileWithShape ")(") = .error (.panic .slice) ∧
    embeddingFromNpyBytes (fun _ => "") (fileWithShape "(4294967296, 4294967296)") =
      .error (.panic .overflow) ∧
    embeddingFromNpyBytes (fun _ => "") (fileWithShape "(0, 9223372036854775807)") =
      .error (.panic .capacity) ∧
    (∃ layout, layOut (fun _ => "") (fileWithShape "(0, 1099511627776)") = .ok layout ∧
      layout.data = [] ∧ layout.header.rowLen = 1099511627776) ∧
    ¬∀ buffer, Safe (fun _ => "") buffer := by
  have backwards : embeddingFromNpyBytes (fun _ => "") (fileWithShape ")(") =
      .error (.panic .slice) := by
    unfold embeddingFromNpyBytes parseNpyF32 layOut
    rw [file_with_shape_header (by decide)]
    rfl
  refine ⟨backwards, ?_, ?_, ?_, fun safe => ?_⟩
  · unfold embeddingFromNpyBytes parseNpyF32 layOut
    rw [file_with_shape_header (by decide)]
    rfl
  · unfold embeddingFromNpyBytes parseNpyF32 layOut
    rw [file_with_shape_header (by decide)]
    rfl
  · unfold layOut
    rw [file_with_shape_header (by decide)]
    exact ⟨_, rfl, rfl, rfl⟩
  · exact (safe ⟨fileWithShape ")(", by decide⟩).faultless .slice backwards

end Panoptikon.Embedding
