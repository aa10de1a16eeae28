import Panoptikon.Embedding.Elements
import Panoptikon.Embedding.HeaderSpelling

/-!
# Reading numpy arrays back

The first row of an array is read from its `.npy` file: the header gives back
the type, the orders and the shape, and every element of the row lies where it
was written.
-/

namespace Panoptikon.Embedding

open Foundation

def StoredType.code : StoredType → String
  | .f2 => "f2" | .f4 => "f4" | .f8 => "f8"
  | .i1 => "i1" | .i2 => "i2" | .i4 => "i4" | .i8 => "i8"
  | .u1 => "u1" | .u2 => "u2" | .u4 => "u4" | .u8 => "u8"
  | .bool => "b1"

/-- The type of an element with its byte order, which one byte does not have. -/
def StoredType.descr (stored : StoredType) (littleEndian : Bool) : Text :=
  (if stored.size = 1 then '|' else if littleEndian then '<' else '>') :: stored.code.toList

/-- `{'descr': '…', 'fortran_order': …, 'shape': (…), }`, padded with spaces to a
line. -/
def standardHeader (stored : StoredType) (littleEndian fortran : Bool) (dims : Text)
    (padding : Nat) : Text :=
  '{' :: (quoted '\'' "descr" ++ ':' :: ' ' :: '\'' :: (stored.descr littleEndian ++
    "', ".toList ++ (quoted '\'' "fortran_order" ++ ':' :: ' ' ::
      ((if fortran then "True" else "False").toList ++ ", ".toList ++
        (quoted '\'' "shape" ++ ':' :: ' ' :: '(' :: (dims ++ ')' :: (", \x7d".toList ++
          List.replicate padding ' ' ++ ['\n'])))))))

def Shape.text : List Nat → Text
  | [] => []
  | [dim] => decimal dim ++ [',']
  | first :: rest => decimal first ++ rest.flatMap fun dim => ',' :: ' ' :: decimal dim

variable (stored : StoredType)

theorem parse_descr_standard (littleEndian : Bool) : parseDescr (stored.descr littleEndian) =
      .ok (stored.dtype, littleEndian || stored.size = 1) := by
  cases stored <;> cases littleEndian <;> rfl

def noBlank : Blank := ⟨[], nofun⟩

def oneBlank : Blank := ⟨[' '], List.forall_mem_singleton.mpr (by decide)⟩

theorem padding_blank (padding : Nat) : ∀ char ∈ List.replicate padding ' ' ++ ['\n'], Text.isWhitespace char =
    true := by
  intro char member
  rcases List.mem_append.mp member with isSpace | isEnd
  · rw [List.eq_of_mem_replicate isSpace]
    rfl
  · rw [List.mem_singleton.mp isEnd]
    rfl

def numpySpelling (padding : Nat) : HeaderSpelling where
  lead := noBlank
  order := [.descr, .fortranOrder, .shape]
  complete := List.Perm.refl _
  quote := fun _ => .single
  descrQuote := .single
  before := fun key => if key = .descr then noBlank else oneBlank
  beforeColon := fun _ => noBlank
  afterColon := fun _ => oneBlank
  behind := fun _ => noBlank
  beforeDim := fun index => if index = 0 then noBlank else oneBlank
  afterDim := fun _ => noBlank
  dimComma := false
  behindDims := noBlank
  lastComma := true
  closing := oneBlank
  padding := ⟨List.replicate padding ' ' ++ ['\n'], padding_blank padding⟩

theorem descr_typed (littleEndian : Bool) :
    (∀ char ∈ stored.descr littleEndian, char ∉ ['\'', '"', '(', ')', ',']) ∧
    ∀ char ∈ (stored.descr littleEndian).head?, char ∉ ['d', 'f', 's'] := by
  cases stored <;> cases littleEndian <;> simp [StoredType.descr, StoredType.size, StoredType.dtype, StoredType.code]

def standardValues (stored : StoredType) (littleEndian fortran : Bool) (shape : List Nat) : HeaderValues :=
  ⟨stored.descr littleEndian, (descr_typed stored littleEndian).1, (descr_typed stored littleEndian).2, fortran, shape⟩

theorem standard_spelled {shape : List Nat} (dims : shape.length = 1 ∨ shape.length = 2) (stored : StoredType)
    (littleEndian fortran : Bool) (padding : Nat) :
    standardHeader stored littleEndian fortran (Shape.text shape) padding =
      (numpySpelling padding).header (standardValues stored littleEndian fortran shape) := by
  have isDims : Shape.text shape = (numpySpelling padding).dims 0 shape := by
    match shape, dims with
    | [dim], _ => simp [Shape.text, HeaderSpelling.dims, numpySpelling, noBlank]
    | [rows, columns], _ => simp [Shape.text, HeaderSpelling.dims, numpySpelling, noBlank, oneBlank]
  rw [isDims]
  simp only [standardHeader, HeaderSpelling.header, HeaderSpelling.ending, numpySpelling, HeaderSpelling.entries,
    HeaderSpelling.entry, HeaderSpelling.comma, HeaderSpelling.written, standardValues]
  cases fortran <;> simp [noBlank, oneBlank, quoted, NpyKey.name, Quote.char]

/-- An array of one dimension, or of rows; bits as stored. -/
structure NpyArray where
  stored : StoredType
  littleEndian : Bool
  fortran : Bool
  rows : Option Nat
  columns : Nat
  element : Nat → Nat → Nat
  nonempty : rows ≠ some 0
  /-- Dimensions are signed words. -/
  addressable : ∀ dim ∈ rows.toList ++ [columns], dim < isizeLimit
  bounded : ∀ row column, element row column < 256 ^ stored.size

namespace NpyArray

def shape (array : NpyArray) : List Nat := array.rows.toList ++ [array.columns]

/-- The elements in the order they are stored in. -/
def elements (array : NpyArray) : List Nat :=
  match array.rows with
  | none => (List.range array.columns).map (array.element 0)
  | some rows =>
      if array.fortran then
        (List.range array.columns).flatMap fun column =>
          (List.range rows).map fun row => array.element row column
      else (List.range rows).flatMap fun row => (List.range array.columns).map (array.element row)

def firstRow (array : NpyArray) : List Nat := (List.range array.columns).map (array.element 0)

def header (array : NpyArray) (padding : Nat) : Text :=
  standardHeader array.stored array.littleEndian array.fortran (Shape.text array.shape) padding

def file (array : NpyArray) (version : NpyVersion) (padding : Nat) : List UInt8 :=
  npyFile version (array.header padding)
    (array.elements.flatMap (array.stored.encode array.littleEndian))

/-- The version can hold the length of the header, and memory the file. -/
structure Storable (array : NpyArray) (version : NpyVersion) (padding : Nat) : Prop where
  header : (encodeText (array.header padding)).length < 256 ^ version.lengthBytes
  file : (array.file version padding).length < isizeLimit

section

variable {array : NpyArray} {version : NpyVersion} {padding : Nat}

theorem elements_length (array : NpyArray) : array.elements.length = array.shape.prod := by
  unfold elements shape
  cases array.rows with
  | none => simp
  | some rows =>
    simp only
    split <;> simp [Nat.mul_comm]

theorem data_length (array : NpyArray) : (array.elements.flatMap (array.stored.encode array.littleEndian)).length =
      array.shape.prod * array.stored.size := by
  rw [List.length_flatMap, ← elements_length]
  simp [StoredType.encode_length]

theorem size_positive : 0 < stored.size := by cases stored <;> decide

theorem getElem?_blocks {Block Elem : Type} (blocks : List Block) (block : Block → List Elem)
    (index : Nat) {length offset : Nat} (all : ∀ one ∈ blocks, (block one).length = length)
    (inside : offset < length) : (blocks.flatMap block)[index * length + offset]? =
      blocks[index]?.bind fun one => (block one)[offset]? := by
  induction blocks generalizing index with
  | nil => simp
  | cons first rest ih =>
    have firstLength := all first List.mem_cons_self
    rw [List.flatMap_cons]
    cases index with
    | zero =>
      rw [Nat.zero_mul, Nat.zero_add, List.getElem?_append_left (by omega)]
      rfl
    | succ index =>
      rw [Nat.succ_mul, List.getElem?_append_right (by omega), firstLength,
        show index * length + length + offset - length = index * length + offset by omega,
        ih index fun one member => all one (List.mem_cons_of_mem _ member)]
      rfl

theorem element_bytes {index bits : Nat} (found : array.elements[index]? = some bits) :
    getRange (array.elements.flatMap (array.stored.encode array.littleEndian))
      (index * array.stored.size) (index * array.stored.size + array.stored.size) =
      some (array.stored.encode array.littleEndian bits) := by
  obtain ⟨inside, isBits⟩ := List.getElem?_eq_some_iff.mp found
  have split : array.elements = array.elements.take index ++ bits ::
      array.elements.drop (index + 1) := by
    rw [← isBits, ← List.drop_eq_getElem_cons inside, List.take_append_drop]
  have encoded (some_ : List Nat) : (some_.flatMap
      (array.stored.encode array.littleEndian)).length = some_.length * array.stored.size := by
    rw [List.length_flatMap]
    simp [StoredType.encode_length]
  have middle := middle_of_append
    ((array.elements.take index).flatMap (array.stored.encode array.littleEndian))
    (array.stored.encode array.littleEndian bits)
    ((array.elements.drop (index + 1)).flatMap (array.stored.encode array.littleEndian))
  have before : (array.elements.take index).length = index := by
    rw [List.length_take]
    omega
  rw [encoded, before, StoredType.encode_length] at middle
  have whole : array.elements.flatMap (array.stored.encode array.littleEndian) =
      (array.elements.take index).flatMap (array.stored.encode array.littleEndian) ++
        array.stored.encode array.littleEndian bits ++
        (array.elements.drop (index + 1)).flatMap (array.stored.encode array.littleEndian) := by
    conv_lhs => rw [split]
    rw [List.flatMap_append, List.flatMap_cons, List.append_assoc]
  have fits : index * array.stored.size + array.stored.size ≤
      (array.elements.flatMap (array.stored.encode array.littleEndian)).length := by
    rw [encoded]
    calc index * array.stored.size + array.stored.size = (index + 1) * array.stored.size := by ring
      _ ≤ array.elements.length * array.stored.size := Nat.mul_le_mul_right _ inside
  rw [getRange, if_pos ⟨Nat.le_add_right _ _, fits⟩, whole, middle]

/-- The layout of a file. -/
def layout (array : NpyArray) (dataOffset : Nat) : Layout where
  header := { dtype := array.stored.dtype
              littleEndian := array.littleEndian || array.stored.size = 1
              fortran := array.fortran
              shape := array.shape
              dataOffset }
  data := array.elements.flatMap (array.stored.encode array.littleEndian)

theorem shape_dims (array : NpyArray) : array.shape.length = 1 ∨ array.shape.length = 2 := by
  unfold shape
  cases array.rows <;> simp

theorem row_len (array : NpyArray) (dataOffset : Nat) :
    (array.layout dataOffset).header.rowLen = array.columns := by
  unfold layout NpyHeader.rowLen shape
  cases array.rows <;> simp

theorem data_small (storable : array.Storable version padding) :
    array.shape.prod * array.stored.size < isizeLimit := by
  have length := npy_file_length version (array.header padding)
    (array.elements.flatMap (array.stored.encode array.littleEndian))
  have bounded := storable.file
  rw [data_length] at length
  unfold file at bounded
  omega

theorem lay_out_file (utf8Error : List UInt8 → String) (storable : array.Storable version padding) :
    layOut utf8Error (array.file version padding) = .ok (array.layout
      (8 + version.lengthBytes + (encodeText (array.header padding)).length)) := by
  have spelled : array.header padding = (numpySpelling padding).header (standardValues array.stored
      array.littleEndian array.fortran array.shape) := standard_spelled array.shape_dims _ _ _ _
  have header := storable.header
  have file := storable.file
  have small : ∀ dim ∈ array.shape, dim < usizeLimit := fun dim member =>
    lt_trans (array.addressable dim member) (by decide)
  have dims := array.shape_dims
  unfold NpyArray.file at file ⊢
  rw [spelled] at header file ⊢
  exact HeaderSpelling.lay_out_file _ _ utf8Error (parse_descr_standard _ _)
    ⟨show array.shape.length ≤ 2 by omega, by simp [standardValues, shape]⟩ small (size_positive _) array.data_length
    header file

theorem element_index (dataOffset : Nat) {index : Nat} (inRow : index < array.columns)
    (dataSmall : array.shape.prod * array.stored.size < isizeLimit) :
    ∃ place, (array.layout dataOffset).header.elementIndex index = .ok place ∧
      array.elements[place]? = some (array.element 0 index) := by
  have nonempty := array.nonempty
  unfold NpyHeader.elementIndex layout elements
  dsimp only
  unfold shape at dataSmall ⊢
  cases isRows : array.rows with
  | none => exact ⟨index, by simp, by simp [inRow]⟩
  | some rows =>
    rw [isRows] at nonempty dataSmall
    have some_ : 0 < rows := Nat.pos_of_ne_zero fun none => nonempty (congrArg some none)
    cases array.fortran with
    | false =>
      have block := getElem?_blocks (List.range rows)
        (fun row => (List.range array.columns).map (array.element row)) 0 (by simp) inRow
      rw [Nat.zero_mul, Nat.zero_add] at block
      refine ⟨index, by simp, ?_⟩
      dsimp only
      rw [if_neg Bool.false_ne_true, block]
      simp [some_, inRow]
    | true =>
      have block := getElem?_blocks (List.range array.columns)
        (fun column => (List.range rows).map fun row => array.element row column) index
        (by simp) some_
      have fits : index * rows < usizeLimit := by
        have limits : isizeLimit < usizeLimit := by decide
        have positive := size_positive array.stored
        have least := Nat.le_mul_of_pos_right (rows * array.columns) positive
        have below : index * rows ≤ rows * array.columns := by
          rw [Nat.mul_comm]
          exact Nat.mul_le_mul_left rows (Nat.le_of_lt inRow)
        simp only [Option.toList_some, List.singleton_append, List.prod_cons, List.prod_nil,
          Nat.mul_one] at dataSmall
        omega
      refine ⟨index * rows, ?_, ?_⟩
      · simp [checkedMul, fits, okOr]
      · rw [Nat.add_zero] at block
        dsimp only
        rw [if_pos rfl, block]
        simp [some_, inRow]

theorem read_element_file (dataOffset : Nat) {index : Nat} (inRow : index < array.columns)
    (dataSmall : array.shape.prod * array.stored.size < isizeLimit) : (array.layout dataOffset).readElement index =
      .ok (array.stored.convert (array.element 0 index)) := by
  obtain ⟨place, isPlace, found⟩ := element_index dataOffset inRow dataSmall
  have limits : isizeLimit < usizeLimit := by decide
  obtain ⟨inside, _⟩ := List.getElem?_eq_some_iff.mp found
  have below : place * array.stored.size + array.stored.size < isizeLimit := by
    rw [elements_length] at inside
    calc place * array.stored.size + array.stored.size = (place + 1) * array.stored.size := by ring
      _ ≤ array.shape.prod * array.stored.size := Nat.mul_le_mul_right _ inside
      _ < isizeLimit := dataSmall
  have start : usizeMul place array.stored.size = .ok (place * array.stored.size) :=
    if_pos (by omega)
  have slice : getRange (array.layout dataOffset).data (place * array.stored.size)
      (place * array.stored.size + array.stored.size) =
      some (array.stored.encode array.littleEndian (array.element 0 index)) :=
    element_bytes found
  have scalar : parseScalar (array.stored.encode array.littleEndian (array.element 0 index))
      array.stored.dtype (array.littleEndian || array.stored.size = 1) =
      .ok (array.stored.convert (array.element 0 index)) := by
    have fits := array.bounded 0 index
    by_cases byte : array.stored.size = 1
    · rw [decide_eq_true byte, Bool.or_true, StoredType.encode_byte byte array.littleEndian true]
      exact StoredType.parse_scalar_encode fits true
    · rw [decide_eq_false byte, Bool.or_false]
      exact StoredType.parse_scalar_encode fits array.littleEndian
  unfold Layout.readElement
  rw [isPlace, ok_bind]
  change (usizeMul place array.stored.size >>= _) = _
  rw [start, ok_bind]
  change (usizeAdd _ array.stored.size >>= _) = _
  rw [usize_add_of_lt (by omega), ok_bind, slice]
  exact scalar

theorem parse_npy_f32_file (utf8Error : List UInt8 → String) (storable : array.Storable version padding) :
    parseNpyF32 utf8Error (array.file version padding) =
      if array.columns * 4 < isizeLimit then .ok (array.firstRow.map array.stored.convert)
      else .error (.panic .capacity) := by
  have dataSmall := data_small storable
  unfold parseNpyF32
  rw [lay_out_file utf8Error storable, ok_bind, row_len, withCapacity]
  split
  · rw [ok_bind, firstRow, List.map_map]
    refine mapM_returns fun index member => ?_
    exact read_element_file _ (List.mem_range.mp member) dataSmall
  · rfl

/-- The first row, each number the nearest single. -/
def ReadBack (array : NpyArray) (outcome : Parse (List Nat)) : Prop :=
  ∃ values, outcome = .ok values ∧ List.Forall₂
    (fun bits value => BinaryFormat.single.Represents (array.stored.datum bits) value)
    array.firstRow values

/-- The first row is read back when it has a capacity and no subnormal halves. -/
theorem read_back_iff (array : NpyArray) (version : NpyVersion) (padding : Nat)
    (utf8Error : List UInt8 → String) (storable : array.Storable version padding) :
    array.ReadBack (parseNpyF32 utf8Error (array.file version padding)) ↔
      array.columns * 4 < isizeLimit ∧
        ¬(array.stored = .f2 ∧ ∃ column < array.columns, Subnormal (array.element 0 column)) := by
  have each : List.Forall₂ (fun bits value =>
      BinaryFormat.single.Represents (array.stored.datum bits) value) array.firstRow
      (array.firstRow.map array.stored.convert) ↔
      ¬(array.stored = .f2 ∧ ∃ column < array.columns, Subnormal (array.element 0 column)) := by
    rw [List.forall₂_map_right_iff, List.forall₂_same, firstRow]
    simp only [List.forall_mem_map, List.mem_range,
      StoredType.convert_represents_iff (array.bounded 0 _)]
    push Not
    exact ⟨fun all isHalf column inRow => all column inRow isHalf,
      fun all column inRow isHalf => all isHalf column inRow⟩
  unfold ReadBack
  rw [parse_npy_f32_file utf8Error storable, ← each]
  split
  · rename_i room
    constructor
    · rintro ⟨values, isValues, represent⟩
      cases isValues
      exact ⟨room, represent⟩
    · exact fun ⟨_, represent⟩ => ⟨_, rfl, represent⟩
  · rename_i room
    constructor
    · rintro ⟨values, isValues, -⟩
      cases isValues
    · exact fun ⟨room', _⟩ => absurd room' room

/-- One half-precision number. -/
def half (bits : Fin 65536) : NpyArray where
  stored := .f2
  littleEndian := true
  fortran := false
  rows := none
  columns := 1
  element := fun _ _ => bits
  nonempty := nofun
  addressable := by decide
  bounded := fun _ _ => bits.isLt

theorem half_storable (bits : Fin 65536) : (half bits).Storable .one 0 where
  header := by
    change (encodeText ((half 0).header 0)).length < 256 ^ 2
    decide
  file := by
    have length : ((half bits).file .one 0).length = _ := npy_file_length _ _ _
    rw [data_length] at length
    rw [length]
    change 10 + (encodeText ((half 0).header 0)).length + 2 < isizeLimit
    decide

theorem one_read_back : (half 0x3c00).ReadBack (parseNpyF32 (fun _ => "") ((half 0x3c00).file .one 0)) :=
  (read_back_iff (half 0x3c00) .one 0 (fun _ => "") (half_storable _)).mpr (by decide)

/-- The smallest half, `2⁻²⁴`, is read as `2⁻²⁵`. -/
theorem smallest_half_halved :
    parseNpyF32 (fun _ => "") ((half 1).file .one 0) = .ok [0x33000000] ∧
    BinaryFormat.half.decode 1 = .finite false 1 (-24) ∧
    BinaryFormat.single.decode 0x33000000 = .finite false (2 ^ 23) (-48) ∧
    ¬∀ (array : NpyArray) (version : NpyVersion) (padding : Nat),
      array.Storable version padding →
      array.ReadBack (parseNpyF32 (fun _ => "") (array.file version padding)) := by
  refine ⟨?_, by decide, by decide, fun readsBack => ?_⟩
  · rw [parse_npy_f32_file (fun _ => "") (half_storable 1)]
    rfl
  · obtain ⟨values, isValues, represent⟩ := readsBack (half 1) .one 0 (half_storable 1)
    rw [parse_npy_f32_file (fun _ => "") (half_storable 1)] at isValues
    cases isValues
    rw [List.forall₂_map_right_iff, List.forall₂_same] at represent
    have isRounded : BinaryFormat.single.Represents (BinaryFormat.half.decode 1) (f16ToF32 1) :=
      represent 1 (by decide)
    exact half_represents_iff.mp isRounded (by decide)

end

end NpyArray

end Panoptikon.Embedding
