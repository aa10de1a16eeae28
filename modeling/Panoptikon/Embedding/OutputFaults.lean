import Panoptikon.Embedding.Agreement

/-!
# When the output side faults

On any bytes the output side returns rows or an error, unless the length of a header
is cut off, parentheses are nested too deep, or a product of dimensions fits no word.
-/

namespace Panoptikon.Embedding.Output

open Foundation

def depthStep (depth : Int) (char : Char) : Int :=
  if char = '(' then depth + 1
  else if char = ')' then max (depth - 1) (-depthLimit)
  else depth

def depthAfter (depth : Int) (text : Text) : Int := text.foldl depthStep depth

/-- No comma of the text ends a field. -/
def Unended (depth : Int) (text : Text) : Prop :=
  ∀ front back, text = front ++ ',' :: back → depthAfter depth front ≠ 0

/-- No parenthesis of the field reaches the greatest depth. -/
def DepthFitsFrom (depth : Int) (text : Text) : Prop :=
  ∀ front back, text = front ++ '(' :: back → Unended depth front → depthAfter depth front + 1 < depthLimit

def DepthFits (text : Text) : Prop := DepthFitsFrom 0 text

theorem unended_nil (depth : Int) : Unended depth [] := by
  intro front back same
  cases front with
  | nil | cons => cases same

variable {depth : Int} {text : Text}

theorem unended_cons {char : Char} :
    Unended depth (char :: text) ↔ (char = ',' → depth ≠ 0) ∧ Unended (depthStep depth char) text := by
  constructor
  · intro unended
    refine ⟨?_, ?_⟩
    · rintro rfl
      exact unended [] text rfl
    · rintro front back rfl
      exact unended (char :: front) back rfl
  · rintro ⟨first, rest⟩ front back same
    cases front with
    | nil =>
      cases same
      exact first rfl
    | cons other others =>
      cases same
      exact rest others back rfl

theorem depth_fits_cons {char : Char} : DepthFitsFrom depth (char :: text) ↔
      (char = '(' → depth + 1 < depthLimit) ∧
        ((char = ',' → depth ≠ 0) → DepthFitsFrom (depthStep depth char) text) := by
  constructor
  · intro fits
    refine ⟨?_, ?_⟩
    · rintro rfl
      exact fits [] text rfl (unended_nil depth)
    · rintro goesOn front back rfl unended
      exact fits (char :: front) back rfl (unended_cons.mpr ⟨goesOn, unended⟩)
  · rintro ⟨first, rest⟩ front back same unended
    cases front with
    | nil =>
      cases same
      exact first rfl
    | cons other others =>
      cases same
      obtain ⟨goesOn, unended⟩ := unended_cons.mp unended
      exact rest goesOn others back rfl unended

theorem depth_fits_nil (depth : Int) : DepthFitsFrom depth [] := by
  intro front back same
  cases front with
  | nil | cons => cases same

theorem field_end_faultless_iff (depth : Int) (offset : Nat) (text : Text) :
    Faultless (fieldEnd depth offset text) ↔ DepthFitsFrom depth text := by
  induction text generalizing depth offset with
  | nil => exact iff_of_true (faultless_ok 0) (depth_fits_nil depth)
  | cons char rest ih =>
    rw [depth_fits_cons]
    by_cases opening : char = '('
    · rw [opening, fieldEnd]
      split
      · rename_i fits
        rw [ih]
        exact ⟨fun rest => ⟨fun _ => fits, fun _ => rest⟩, fun both => both.2 fun isComma => absurd isComma (by decide)⟩
      · rename_i deep
        exact iff_of_false (not_faultless_panic _) fun both => deep (both.1 rfl)
    · by_cases closing : char = ')'
      · rw [closing, fieldEnd, ih]
        exact ⟨fun rest => ⟨fun absent => absurd absent (by decide), fun _ => rest⟩, fun both => both.2
          fun isComma => absurd isComma (by decide)⟩
      · have same : depthStep depth char = depth := by
          rw [depthStep, if_neg opening, if_neg closing]
        rw [same]
        by_cases ends : char = ',' ∧ depth = 0
        · rw [ends.1, ends.2, fieldEnd, if_pos rfl]
          exact iff_of_true (faultless_ok offset)
            ⟨fun absent => absurd absent (by decide), fun goesOn => absurd rfl (goesOn rfl)⟩
        · rw [field_end_char depth offset rest opening closing (not_and_or.mp ends), ih]
          exact ⟨fun rest => ⟨fun isOpening => absurd isOpening opening, fun _ => rest⟩,
            fun both => both.2 fun isComma isZero => ends ⟨isComma, isZero⟩⟩

theorem field_end_place {offset found : Nat} (returned : fieldEnd depth offset text = .ok found) :
    found = 0 ∨ ∃ front back, text = front ++ back ∧ found = offset + Text.byteLength front := by
  induction text generalizing depth offset with
  | nil =>
    cases returned
    exact .inl rfl
  | cons char rest ih =>
    have behind {more : Nat} {deeper : Int} (isSize : char.utf8Size = more)
        (goesOn : fieldEnd deeper (offset + more) rest = .ok found) :
        found = 0 ∨ ∃ front back, char :: rest = front ++ back ∧ found = offset + Text.byteLength front := by
      rcases ih goesOn with isZero | ⟨front, back, same, place⟩
      · exact .inl isZero
      · refine .inr ⟨char :: front, back, by rw [same]; rfl, ?_⟩
        rw [place, Text.byte_length_cons, isSize, Nat.add_assoc]
    by_cases opening : char = '('
    · rw [opening, fieldEnd] at returned
      split at returned
      · exact behind (by rw [opening]; rfl) returned
      · cases returned
    · by_cases closing : char = ')'
      · rw [closing, fieldEnd] at returned
        exact behind (by rw [closing]; rfl) returned
      · by_cases ends : char = ',' ∧ depth = 0
        · rw [ends.1, ends.2, fieldEnd, if_pos rfl] at returned
          cases returned
          exact .inr ⟨[], char :: rest, rfl, rfl⟩
        · rw [field_end_char depth offset rest opening closing (not_and_or.mp ends)] at returned
          exact behind rfl returned

/-- The text behind a key, to which the scan of its field belongs. -/
def behindKey (header : Text) (key : String) : Option Text :=
  (Text.find (needle key) header).bind fun idx =>
    (Text.sliceFrom header (idx + Text.byteLength (needle key))).map Text.trimStart

def FieldFits (header : Text) (key : String) : Prop := ∀ rest, behindKey header key = some rest → DepthFits rest

variable {header : Text}

theorem parse_field_faultless_iff (fits : Addressable header) (key : String) :
    Faultless (parseNpyField header key) ↔ FieldFits header key := by
  have limits : isizeLimit < usizeLimit := by decide
  unfold parseNpyField FieldFits behindKey
  cases found : Text.find (needle key) header with
  | none =>
    dsimp only
    rw [Option.bind_none]
    exact iff_of_true (faultless_pure _) fun rest absent => absurd absent.symm (Option.some_ne_none rest)
  | some idx =>
    obtain ⟨after, isAfter, length⟩ := Text.slice_after_find found
    have inside : idx + Text.byteLength (needle key) < usizeLimit := by
      unfold Addressable at fits
      omega
    dsimp only
    rw [Option.bind_some, isAfter, Option.map_some, usize_add_of_lt inside, ok_bind, sliced_some isAfter, ok_bind,
      faultless_bind, field_end_faultless_iff]
    constructor
    · rintro ⟨deep, -⟩ rest isRest
      rw [← Option.some.inj isRest]
      exact deep
    · intro deep
      refine ⟨deep _ rfl, ?_⟩
      intro stop returned
      have slice : ∃ value, Text.sliceTo after.trimStart
          (if stop = 0 then Text.byteLength after.trimStart else stop) = some value := by
        by_cases none : stop = 0
        · have whole := Text.slice_to_append after.trimStart []
          rw [List.append_nil] at whole
          exact ⟨after.trimStart, by rw [if_pos none]; exact whole⟩
        · obtain ⟨front, back, same, place⟩ := (field_end_place returned).resolve_left none
          refine ⟨front, ?_⟩
          rw [if_neg none, place, Nat.zero_add, same]
          exact Text.slice_to_append front back
      obtain ⟨value, isValue⟩ := slice
      rw [sliced_some isValue, ok_bind]
      exact faultless_pure _

theorem parse_shape_faultless (shapeStr : Text) : Faultless (parseShape shapeStr) := by
  unfold parseShape
  simp only [faultless_bind, faultless_ensure, faultless_ok_or, faultless_pure, implies_true, and_self]

theorem float_type_faultless (descr : Text) : Faultless (floatType descr) := by
  unfold floatType
  split
  · exact faultless_ok _
  · split
    · exact faultless_ok _
    · split
      · exact faultless_ok _
      · exact faultless_fail _

/-- The fields are not nested too deep, as far as they are read. -/
structure HeaderFits (header : Text) : Prop where
  descr : FieldFits header "descr"
  fortranOrder : ∀ descr float, parseNpyField header "descr" = .ok (some descr) → floatType descr = .ok float →
    FieldFits header "fortran_order"
  shape : ∀ descr float fortran, parseNpyField header "descr" = .ok (some descr) → floatType descr = .ok float →
    parseNpyField header "fortran_order" = .ok fortran → (fortran.getD "False".toList).trim = "False".toList →
      FieldFits header "shape"

theorem parse_fields_faultless_iff (fits : Addressable header) :
    Faultless (parseFields header) ↔ HeaderFits header := by
  unfold parseFields
  simp only [faultless_bind, faultless_ensure, faultless_ok_or, float_type_faultless, parse_shape_faultless,
    parse_field_faultless_iff fits, faultless_pure, true_and, and_true, implies_true, ok_or_eq_ok, ensure_eq_ok]
  constructor
  · rintro ⟨descr, rest⟩
    refine ⟨descr, ?_, ?_⟩
    · intro value float isDescr isFloat
      exact (rest _ isDescr value rfl float isFloat).1
    · intro value float fortran isDescr isFloat isFortran rowMajor
      exact (rest _ isDescr value rfl float isFloat).2 fortran isFortran () rowMajor
  · rintro ⟨descr, fortranOrder, shape⟩
    refine ⟨descr, ?_⟩
    rintro _ isDescr value rfl float isFloat
    refine ⟨fortranOrder value float isDescr isFloat, ?_⟩
    intro fortran isFortran _ rowMajor
    exact shape value float fortran isDescr isFloat isFortran rowMajor

/-- Four bytes of length are there where they are read. -/
def LengthThere (buffer : List UInt8) : Prop :=
  10 ≤ buffer.length → buffer.take 6 = magic → buffer.getD 6 0 = 2 ∨ buffer.getD 6 0 = 3 → 12 ≤ buffer.length

variable {buffer : List UInt8}

theorem place_bounded {place : Nat × Nat} (found : headerPlace buffer = .ok place) :
    place.2 + place.1 < usizeLimit := by
  have limits : 12 + 256 ^ 4 < usizeLimit := by decide
  have short (bytes : List UInt8) (few : bytes.length ≤ 4) : leBytes bytes < 256 ^ 4 :=
    Nat.lt_of_lt_of_le (FloatArray.le_bytes_lt bytes) (Nat.pow_le_pow_right (by decide) few)
  unfold headerPlace at found
  dsimp only at found
  split at found
  · cases found
    have small := short ((buffer.take 10).drop 8) (by rw [List.length_drop, List.length_take]; omega)
    omega
  · split at found
    · split at found
      · cases found
      · cases found
        have small := short ((buffer.take 12).drop 8) (by rw [List.length_drop, List.length_take]; omega)
        omega
    · cases found

theorem place_faultless_iff : Faultless (headerPlace buffer) ↔
    (buffer.getD 6 0 = 2 ∨ buffer.getD 6 0 = 3 → 12 ≤ buffer.length) := by
  unfold headerPlace
  dsimp only
  split
  · rename_i one
    refine iff_of_true (faultless_ok _) ?_
    rintro (two | three)
    · rw [two] at one
      cases one
    · rw [three] at one
      cases one
  · split
    · rename_i wide
      split
      · rename_i short
        exact iff_of_false (not_faultless_panic _) fun long => Nat.not_le_of_lt short (long wide)
      · rename_i long
        exact iff_of_true (faultless_ok _) fun _ => Nat.le_of_not_lt long
    · rename_i narrow
      exact iff_of_true (faultless_fail _) fun wide => absurd wide narrow

theorem header_text_faultless_iff : Faultless (headerText buffer) ↔ LengthThere buffer := by
  have utf8 (bytes : List UInt8) : Faultless (fromUtf8 bytes) := faultless_ok_or _ _
  unfold headerText LengthThere
  simp only [faultless_bind, faultless_ensure, utf8, faultless_pure, faultless_usize_add, true_and, and_true,
    implies_true, ensure_eq_ok, place_faultless_iff]
  constructor
  · intro all long isMagic
    exact (all () ⟨long, isMagic⟩).1
  · rintro there _ ⟨long, isMagic⟩
    exact ⟨there long isMagic, fun place found => place_bounded found⟩

variable {dataStart : Nat}

theorem header_text_fits (returned : headerText buffer = .ok (header, dataStart)) :
    Text.byteLength header ≤ buffer.length ∧ dataStart ≤ buffer.length := by
  unfold headerText at returned
  obtain ⟨_, -, returned⟩ := bind_ok returned
  obtain ⟨place, -, returned⟩ := bind_ok returned
  obtain ⟨headerEnd, isEnd, returned⟩ := bind_ok returned
  obtain ⟨_, inside, returned⟩ := bind_ok returned
  obtain ⟨text, decoded, returned⟩ := bind_ok returned
  cases returned
  rw [ensure_eq_ok] at inside
  refine ⟨?_, inside⟩
  have searchDecoded : Embedding.fromUtf8 (fun _ => "") ((buffer.take dataStart).drop place.2) = .ok header := by
    unfold fromUtf8 at decoded
    unfold Embedding.fromUtf8
    cases isText : String.fromUTF8? ⟨((buffer.take dataStart).drop place.2).toArray⟩ with
    | none =>
      rw [isText] at decoded
      cases decoded
    | some string =>
      rw [isText] at decoded
      cases decoded
      rfl
  rw [from_utf8_length searchDecoded, List.length_drop, List.length_take]
  omega

/-- Every product of leading dimensions fits a word. -/
def ProductsFit (shape : List Nat) : Prop := ∀ front, front <+: shape → front.prod < usizeLimit

variable {shape : List Nat}

theorem product_eq {start : Nat} (starts : start < usizeLimit) :
    ((∀ front, front <+: shape → start * front.prod < usizeLimit) ∧
        shape.foldlM usizeMul start = .ok (start * shape.prod)) ∨
      (¬(∀ front, front <+: shape → start * front.prod < usizeLimit) ∧
        shape.foldlM usizeMul start = .error (.panic .overflow)) := by
  induction shape generalizing start with
  | nil =>
    refine .inl ⟨?_, ?_⟩
    · intro front isFront
      rw [List.prefix_nil.mp isFront, List.prod_nil, Nat.mul_one]
      exact starts
    · rw [List.prod_nil, Nat.mul_one]
      rfl
  | cons first rest ih =>
    have shifted : (∀ front, front <+: first :: rest → start * front.prod < usizeLimit) ↔
        ∀ front, front <+: rest → start * first * front.prod < usizeLimit := by
      constructor
      · intro all front isFront
        have fits := all (first :: front) ((List.cons_prefix_cons).mpr ⟨rfl, isFront⟩)
        rwa [List.prod_cons, ← Nat.mul_assoc] at fits
      · intro all front isFront
        cases front with
        | nil =>
          rw [List.prod_nil, Nat.mul_one]
          exact starts
        | cons other others =>
          obtain ⟨rfl, isRest⟩ := List.cons_prefix_cons.mp isFront
          rw [List.prod_cons, ← Nat.mul_assoc]
          exact all others isRest
    rw [shifted, List.foldlM_cons, List.prod_cons, ← Nat.mul_assoc]
    by_cases fits : start * first < usizeLimit
    · rw [usizeMul, if_pos fits, ok_bind]
      exact ih fits
    · rw [usizeMul, if_neg fits]
      refine .inr ⟨fun all => fits ?_, rfl⟩
      have one := all [] (List.nil_prefix)
      rwa [List.prod_nil, Nat.mul_one] at one

theorem products_eq (shape : List Nat) : (ProductsFit shape ∧ shape.foldlM usizeMul 1 = .ok shape.prod) ∨
      (¬ProductsFit shape ∧ shape.foldlM usizeMul 1 = .error (.panic .overflow)) := by
  have product := @product_eq shape 1 (show 1 < usizeLimit by decide)
  simp only [Nat.one_mul] at product
  exact product

/-- The sizes of an array fit their words, and what is there has a capacity. -/
structure DataFits (length dataStart : Nat) (float : FloatType) (shape : List Nat) : Prop where
  products : ProductsFit shape
  bytes : shape.prod * float.elemSize < usizeLimit
  stop : dataStart + shape.prod * float.elemSize < usizeLimit
  elements : dataStart + shape.prod * float.elemSize ≤ length → shape.prod * 4 < isizeLimit

variable {float : FloatType}

theorem read_data_faultless_iff :
    Faultless (readData buffer dataStart float shape) ↔ DataFits buffer.length dataStart float shape := by
  unfold readData
  rw [faultless_bind]
  rcases products_eq shape with ⟨fit, product⟩ | ⟨large, product⟩
  · rw [product]
    constructor
    · rintro ⟨-, rest⟩
      have rest := rest _ rfl
      rw [faultless_bind, faultless_usize_mul] at rest
      obtain ⟨bytes, rest⟩ := rest
      have rest := rest _ (if_pos bytes)
      rw [faultless_bind, faultless_usize_add] at rest
      obtain ⟨stop, rest⟩ := rest
      have rest := rest _ (usize_add_of_lt stop)
      refine ⟨fit, bytes, stop, ?_⟩
      intro inside
      rw [faultless_bind] at rest
      have rest := rest.2 () (ensure_eq_ok.mpr inside)
      rw [faultless_bind, faultless_with_capacity, Nat.mul_div_cancel _ (FloatArray.elem_size_pos float)] at rest
      exact rest.1
    · rintro ⟨-, bytes, stop, elements⟩
      refine ⟨faultless_ok _, ?_⟩
      rintro _ ⟨⟩
      rw [faultless_bind, faultless_usize_mul]
      refine ⟨bytes, ?_⟩
      intro expected isExpected
      rw [usizeMul, if_pos bytes] at isExpected
      cases isExpected
      rw [usize_add_of_lt stop, ok_bind, faultless_bind]
      refine ⟨faultless_ensure _ _, ?_⟩
      intro _ inside
      rw [ensure_eq_ok] at inside
      rw [faultless_bind, faultless_with_capacity, Nat.mul_div_cancel _ (FloatArray.elem_size_pos float)]
      exact ⟨elements inside, fun _ _ => faultless_pure _⟩
  · rw [product]
    exact iff_of_false (fun both => not_faultless_panic _ both.1) fun fits => large fits.products

theorem read_data_eq_ok {shape data : List Nat} (returned : readData buffer dataStart float shape = .ok data) :
    dataStart + shape.prod * float.elemSize ≤ buffer.length ∧ data.length = shape.prod := by
  have positive := FloatArray.elem_size_pos float
  unfold readData at returned
  rcases products_eq shape with ⟨fit, product⟩ | ⟨large, product⟩
  · rw [product, ok_bind] at returned
    obtain ⟨expected, isExpected, returned⟩ := bind_ok returned
    obtain ⟨stop, isStop, returned⟩ := bind_ok returned
    obtain ⟨_, inside, returned⟩ := bind_ok returned
    obtain ⟨_, -, returned⟩ := bind_ok returned
    cases returned
    rw [usizeMul] at isExpected
    split at isExpected
    · cases isExpected
      rw [usizeAdd] at isStop
      split at isStop
      · cases isStop
        rw [ensure_eq_ok] at inside
        refine ⟨inside, ?_⟩
        rw [List.length_map, chunksExact, List.length_map, List.length_range, List.length_drop, List.length_take,
          Nat.min_eq_left inside, Nat.add_sub_cancel_left, Nat.mul_div_cancel _ positive]
      · cases isStop
    · cases isExpected
  · rw [product] at returned
    cases returned

/-- Nothing in the bytes makes the output side fault. -/
structure Sound (buffer : List UInt8) : Prop where
  length : LengthThere buffer
  fields : ∀ header dataStart, headerText buffer = .ok (header, dataStart) → HeaderFits header
  data : ∀ header dataStart float shape, headerText buffer = .ok (header, dataStart) →
    parseFields header = .ok (float, shape) → DataFits buffer.length dataStart float shape
  vectors : ∀ header dataStart float rows columns, headerText buffer = .ok (header, dataStart) →
    parseFields header = .ok (float, [rows, columns]) →
      dataStart + rows * columns * float.elemSize ≤ buffer.length → rows * vecSize < isizeLimit

theorem parse_npy_eq_ok {shape data : List Nat} (returned : parseNpy buffer = .ok (shape, data)) :
    ∃ header dataStart float, headerText buffer = .ok (header, dataStart) ∧
      parseFields header = .ok (float, shape) ∧ readData buffer dataStart float shape = .ok data := by
  unfold parseNpy at returned
  obtain ⟨text, isText, returned⟩ := bind_ok returned
  obtain ⟨fields, isFields, returned⟩ := bind_ok returned
  obtain ⟨read, isRead, returned⟩ := bind_ok returned
  cases returned
  exact ⟨text.1, text.2, fields.1, isText, isFields, isRead⟩

theorem parse_npy_faultless_iff (buffer : Bytes) : Faultless (parseNpy buffer.list) ↔ LengthThere buffer.list ∧
      (∀ header dataStart, headerText buffer.list = .ok (header, dataStart) → HeaderFits header) ∧
      ∀ header dataStart float shape, headerText buffer.list = .ok (header, dataStart) →
        parseFields header = .ok (float, shape) → DataFits buffer.list.length dataStart float shape := by
  have fields {header : Text} {dataStart : Nat} (isText : headerText buffer.list = .ok (header, dataStart)) :
      Faultless (parseFields header) ↔ HeaderFits header :=
    parse_fields_faultless_iff (Nat.lt_of_le_of_lt (header_text_fits isText).1 buffer.bounded)
  unfold parseNpy
  rw [faultless_bind, header_text_faultless_iff]
  constructor
  · rintro ⟨there, rest⟩
    refine ⟨there, ?_, ?_⟩
    · intro header dataStart isText
      exact (fields isText).mp (faultless_bind.mp (rest _ isText)).1
    · intro header dataStart float shape isText isFields
      have data := (faultless_bind.mp (rest _ isText)).2 _ isFields
      exact read_data_faultless_iff.mp (faultless_bind.mp data).1
  · rintro ⟨there, fit, data⟩
    refine ⟨there, ?_⟩
    intro text isText
    refine faultless_bind.mpr ⟨(fields isText).mpr (fit text.1 text.2 isText), ?_⟩
    intro parsed isParsed
    refine faultless_bind.mpr ⟨read_data_faultless_iff.mpr (data text.1 text.2 parsed.1 parsed.2 isText isParsed), ?_⟩
    exact fun _ _ => faultless_pure _

theorem row_slice_faultless {data : List Nat} {columns row rows : Nat} (inside : row < rows)
    (length : rows * columns = data.length) (small : data.length < usizeLimit) :
    Faultless (rowSlice data columns row) := by
  have stop : row * columns + columns ≤ data.length := by
    rw [← length, ← Nat.succ_mul]
    exact Nat.mul_le_mul_right _ inside
  unfold rowSlice
  rw [usizeMul, if_pos (by omega), ok_bind, usize_add_of_lt (by omega), ok_bind, if_pos stop]
  exact faultless_pure _

theorem read_data_returns (fits : DataFits buffer.length dataStart float shape)
    (inside : dataStart + shape.prod * float.elemSize ≤ buffer.length) :
    ∃ data, readData buffer dataStart float shape = .ok data := by
  have product := ((products_eq shape).resolve_right fun large => large.1 fits.products).2
  have capacity : withCapacity (shape.prod * float.elemSize / float.elemSize) = .ok () := by
    rw [Nat.mul_div_cancel _ (FloatArray.elem_size_pos float)]
    exact if_pos (fits.elements inside)
  unfold readData
  rw [product, ok_bind, usizeMul, if_pos fits.bytes, ok_bind, usize_add_of_lt fits.stop, ok_bind, ensure,
    if_pos inside, ok_bind, capacity]
  exact ⟨_, rfl⟩

theorem rows_capacity_faultless_iff (rows : Nat) : Faultless (rowsCapacity rows) ↔ rows * vecSize < isizeLimit := by
  unfold rowsCapacity
  split
  · rename_i fits
    exact iff_of_true (faultless_ok _) fits
  · rename_i large
    exact iff_of_false (not_faultless_panic _) large

/-- Cutting the data of two dimensions into rows only needs the capacity for them. -/
theorem cut_faultless_iff {rows columns : Nat} {data : List Nat} (length : data.length = rows * columns)
    (small : data.length < usizeLimit) :
    Faultless (do
      let cells ← usizeMul rows columns
      ensure (cells = data.length) "Embedding shape mismatch"
      rowsCapacity rows
      (List.range rows).mapM (rowSlice data columns)) ↔ rows * vecSize < isizeLimit := by
  have cells : usizeMul rows columns = .ok data.length := by
    rw [length]
    exact if_pos (by rw [← length]; exact small)
  rw [cells, ok_bind, ensure, if_pos rfl, ok_bind, faultless_bind, rows_capacity_faultless_iff]
  constructor
  · exact fun both => both.1
  · intro fits
    refine ⟨fits, fun _ _ => faultless_map_m ?_⟩
    intro row isRow
    exact row_slice_faultless (List.mem_range.mp isRow) length.symm small

theorem rows_faultless_iff (buffer : Bytes) : Faultless (parseNpyToF32Rows buffer.list) ↔ Sound buffer.list := by
  have limits : isizeLimit < usizeLimit := by decide
  have bounded := buffer.bounded
  have product (rows columns : Nat) : [rows, columns].prod = rows * columns := by simp
  have small {dataStart : Nat} {float : FloatType} {shape data : List Nat}
      (isRead : readData buffer.list dataStart float shape = .ok data) : data.length < usizeLimit := by
    obtain ⟨inside, length⟩ := read_data_eq_ok isRead
    have least := Nat.le_mul_of_pos_right shape.prod (FloatArray.elem_size_pos float)
    omega
  unfold parseNpyToF32Rows
  rw [faultless_bind, parse_npy_faultless_iff]
  constructor
  · rintro ⟨⟨there, fields, data⟩, rest⟩
    refine ⟨there, fields, data, ?_⟩
    intro header dataStart float rows columns isText isFields inside
    rw [← product rows columns] at inside
    obtain ⟨read, isRead⟩ := read_data_returns (data header dataStart float _ isText isFields) inside
    have parsed : parseNpy buffer.list = .ok ([rows, columns], read) := by
      unfold parseNpy
      rw [isText, ok_bind]
      dsimp only
      rw [isFields, ok_bind]
      dsimp only
      rw [isRead]
      rfl
    have length := (read_data_eq_ok isRead).2
    rw [product] at length
    exact (cut_faultless_iff length (small isRead)).mp (rest _ parsed)
  · rintro ⟨there, fields, data, vectors⟩
    refine ⟨⟨there, fields, data⟩, ?_⟩
    rintro ⟨shape, read⟩ parsed
    obtain ⟨header, dataStart, float, isText, isFields, isRead⟩ := parse_npy_eq_ok parsed
    cases shape with
    | nil => exact faultless_fail _
    | cons first others =>
      cases others with
      | nil => exact faultless_pure _
      | cons second more =>
        cases more with
        | cons third rest => exact faultless_fail _
        | nil =>
          obtain ⟨inside, length⟩ := read_data_eq_ok isRead
          rw [product] at inside length
          exact (cut_faultless_iff length (small isRead)).mpr
            (vectors header dataStart float first second isText isFields inside)

/-- The parsers agree on an array with a header that the output side reads, with room for its rows and no
subnormal half in the first, and the output side returns on the bytes that are sound. -/
theorem decoders_agree_iff (utf8Error : List UInt8 → String) :
    (∀ (array : FloatArray) (spelling : HeaderSpelling) (version : NpyVersion), array.Storable spelling version →
      (FloatArray.Agrees utf8Error (array.file spelling version) ↔
        spelling.Readable ∧ array.Room ∧ ¬array.HoldsSubnormal)) ∧
    ∀ buffer : Bytes, Faultless (parseNpyToF32Rows buffer.list) ↔ Sound buffer.list :=
  ⟨fun _ _ _ storable => FloatArray.agrees_iff utf8Error storable, rows_faultless_iff⟩

theorem one_half_sized : ([1, 0] : List UInt8).length =
    (none : Option Nat).getD 1 * 1 * FloatType.f2.elemSize := rfl

theorem one_half_addressable : ∀ dim ∈ (none : Option Nat).toList ++ [1], dim < isizeLimit := by
  intro dim member
  rw [List.mem_singleton.mp member]
  decide

/-- The smallest half. -/
def smallestHalf : FloatArray where
  float := .f2
  rows := none
  columns := 1
  data := [1, 0]
  sized := one_half_sized
  addressable := one_half_addressable

theorem numpy_readable : (numpySpelling 0).Readable where
  descr := by decide
  dtype := rfl
  fortranOrder := by decide
  shape := by decide

/-- The same without a comma behind the last entry. -/
def commaless : HeaderSpelling := { numpySpelling 0 with lastComma := false, closing := noBlank }

theorem commaless_storable : smallestHalf.Storable commaless .one where
  header := by decide
  file := by decide

theorem smallest_half_storable : smallestHalf.Storable (numpySpelling 0) .one where
  header := by decide
  file := by decide

theorem decoders_agree_smallest :
    (∀ (array : FloatArray) (spelling : HeaderSpelling) (version : NpyVersion), array.Storable spelling version →
      (FloatArray.Agrees (fun _ => "") (array.file spelling version) ↔
        spelling.Readable ∧ array.Room ∧ ¬array.HoldsSubnormal)) ∧
    ∀ buffer : Bytes, Faultless (parseNpyToF32Rows buffer.list) ↔ Sound buffer.list :=
  decoders_agree_iff fun _ => ""

/-- The smallest half is read as `2⁻²⁴` and as `2⁻²⁵`, only the search side reads a header without a comma at
its end, and the length of a header is indexed beyond ten bytes. -/
theorem decoders_differ :
    parseNpyToF32Rows (smallestHalf.file (numpySpelling 0) .one) = .ok [[0x33800000]] ∧
    parseNpyF32 (fun _ => "") (smallestHalf.file (numpySpelling 0) .one) = .ok [0x33000000] ∧
    (∀ rows, parseNpyToF32Rows (smallestHalf.file commaless .one) ≠ .ok rows) ∧
    parseNpyF32 (fun _ => "") (smallestHalf.file commaless .one) = .ok [0x33000000] ∧
    parseNpyToF32Rows (magic ++ [2, 0, 0, 0]) = .error (.panic .slice) ∧
    ¬((∀ (array : FloatArray) (spelling : HeaderSpelling) (version : NpyVersion), array.Storable spelling version →
        FloatArray.Agrees (fun _ => "") (array.file spelling version)) ∧
      ∀ buffer : Bytes, Faultless (parseNpyToF32Rows buffer.list)) := by
  have output : parseNpyToF32Rows (smallestHalf.file (numpySpelling 0) .one) =
      .ok [[0x33800000]] := by
    unfold parseNpyToF32Rows
    rw [FloatArray.parse_npy_array smallest_half_storable numpy_readable, if_pos (by decide)]
    rfl
  have search : parseNpyF32 (fun _ => "") (smallestHalf.file (numpySpelling 0) .one) =
      .ok [0x33000000] := by
    rw [FloatArray.search_first_row _ smallest_half_storable (by decide), if_pos (by decide)]
    rfl
  have refused : ∀ rows, parseNpyToF32Rows (smallestHalf.file commaless .one) ≠ .ok rows := by
    intro rows returned
    have readable := (FloatArray.parse_rows_full commaless_storable ⟨rows, returned⟩).1
    exact absurd readable.shape.2 (by decide)
  have accepted : parseNpyF32 (fun _ => "") (smallestHalf.file commaless .one) = .ok [0x33000000] := by
    rw [FloatArray.search_first_row _ commaless_storable (by decide), if_pos (by decide)]
    rfl
  refine ⟨output, search, refused, accepted, rfl, ?_⟩
  rintro ⟨agree, -⟩
  obtain ⟨rows, isRows, first⟩ := agree smallestHalf _ _ smallest_half_storable
  rw [output] at isRows
  cases isRows
  have same := first _ rfl
  rw [search] at same
  exact absurd same (by decide)

end Panoptikon.Embedding.Output
