import Panoptikon.Foundation.BinaryFloat
import Panoptikon.Foundation.ByteText
import Panoptikon.Foundation.Fallible

/-!
# Numpy embeddings

`embedding_from_npy_bytes` of `pql/embedding_utils.rs`. A computation stops with
an error it returns, or with a fault: a slice out of bounds or out of order, an
integer operation that overflows, a capacity no allocation can have. Machine
words are natural numbers, and every unchecked sum and product tests its width.
-/

namespace Panoptikon.Embedding

open Foundation

def isizeLimit : Nat := 2 ^ 63

def usizeLimit : Nat := 2 ^ 64

/-- A slice, which holds at most `isize::MAX` bytes. -/
structure Bytes where
  list : List UInt8
  bounded : list.length < isizeLimit

inductive Fault where
  | slice
  | overflow
  | capacity
deriving DecidableEq

inductive Stop where
  | err (message : String)
  | panic (fault : Fault)
deriving DecidableEq

abbrev Parse := Except Stop

def fail {Result : Type} (message : String) : Parse Result := .error (.err message)

def okOr {Result : Type} (message : String) : Option Result → Parse Result
  | some result => .ok result
  | none => fail message

def ensure (condition : Prop) [Decidable condition] (message : String) : Parse Unit :=
  if condition then .ok () else fail message

/-- A slicing expression. -/
def sliced {Result : Type} : Option Result → Parse Result
  | some result => .ok result
  | none => .error (.panic .slice)

def usizeAdd (left right : Nat) : Parse Nat :=
  if left + right < usizeLimit then .ok (left + right) else .error (.panic .overflow)

def usizeMul (left right : Nat) : Parse Nat :=
  if left * right < usizeLimit then .ok (left * right) else .error (.panic .overflow)

def checkedAdd (left right : Nat) : Option Nat :=
  if left + right < usizeLimit then some (left + right) else none

def checkedMul (left right : Nat) : Option Nat :=
  if left * right < usizeLimit then some (left * right) else none

/-- `buffer.get(start..stop)`. -/
def getRange (buffer : List UInt8) (start stop : Nat) : Option (List UInt8) :=
  if start ≤ stop ∧ stop ≤ buffer.length then some ((buffer.take stop).drop start) else none

/-- `Vec::<f32>::with_capacity`. -/
def withCapacity (elements : Nat) : Parse Unit :=
  if elements * 4 < isizeLimit then .ok () else .error (.panic .capacity)

def parseDigits (digits : Text) : Option Nat :=
  digits.foldlM (fun value digit =>
    if digit.isDigit then
      let next := value * 10 + (digit.toNat - '0'.toNat)
      if next < usizeLimit then some next else none
    else none) 0

/-- `str::parse::<usize>`: digits after at most one plus sign. -/
def parseUsize : Text → Option Nat
  | [] => none
  | '+' :: [] => none
  | '+' :: digits => parseDigits digits
  | digits => parseDigits digits

def quoted (quote : Char) (key : String) : Text := quote :: (key.toList ++ [quote])

/-- What `parse_str_value`, `parse_bool_value` and `parse_shape` begin with: the
text behind the first colon after the key. -/
def valueOf (header : Text) (key : String) : Parse (Option Text) := do
  match (Text.find (quoted '\'' key) header).or (Text.find (quoted '"' key) header) with
  | none => return none
  | some keyPos =>
      let afterKey ←
        sliced (Text.sliceFrom header (← usizeAdd keyPos (Text.byteLength (quoted '\'' key))))
      match Text.find [':'] afterKey with
      | none => return none
      | some colonPos =>
          let value ← sliced (Text.sliceFrom afterKey (← usizeAdd colonPos 1))
          return some value.trimStart

def parseStrValue (header : Text) (key : String) : Parse (Option Text) := do
  match ← valueOf header key with
  | none | some [] => return none
  | some (quote :: rest) =>
      if quote ≠ '\'' ∧ quote ≠ '"' then return none
      else
        let value ← sliced (Text.sliceFrom (quote :: rest) 1)
        match Text.find [quote] value with
        | none => return none
        | some stop =>
            let inner ← sliced (Text.sliceTo value stop)
            return some inner

def parseBoolValue (header : Text) (key : String) : Parse (Option Bool) := do
  match ← valueOf header key with
  | none => return none
  | some value =>
      if "True".toList.isPrefixOf value then return some true
      else if "False".toList.isPrefixOf value then return some false
      else return none

/-- Blank parts are skipped. -/
def parseParts : List Text → Option (List Nat)
  | [] => some []
  | part :: rest =>
      if part.trim.isEmpty then parseParts rest
      else do
        let value ← parseUsize part.trim
        let values ← parseParts rest
        return value :: values

def parseShape (header : Text) : Parse (Option (List Nat)) := do
  match ← valueOf header "shape" with
  | none => return none
  | some value =>
      match Text.find ['('] value, Text.find [')'] value with
      | some start, some stop =>
          let inner ← sliced (Text.slice value (← usizeAdd start 1) stop)
          return parseParts (inner.splitOn ',')
      | _, _ => return none

inductive NpyKind where
  | float
  | int
  | uint
  | bool

structure NpyDtype where
  kind : NpyKind
  size : Nat

def parseKind : Char → Option NpyKind
  | 'f' => some .float
  | 'i' => some .int
  | 'u' => some .uint
  | 'b' => some .bool
  | _ => none

/-- The byte order a character names; the target is little-endian. -/
def parseEndian : Char → Option Bool
  | '<' | '|' | '=' => some true
  | '>' => some false
  | _ => none

def parseDescr (descr : Text) : Parse (NpyDtype × Bool) :=
  if descr = ['?'] then .ok (⟨.bool, 1⟩, true)
  else if Text.byteLength descr < 2 then fail "Invalid numpy descr"
  else
    match descr with
    | [] => fail "Invalid numpy descr"
    | endian :: typeStr => do
        let littleEndian ← okOr
          ("Unsupported numpy endian in descr: " ++ String.ofList descr) (parseEndian endian)
        match typeStr with
        | [] => fail "Invalid numpy descr"
        | kindChar :: sizeStr =>
            let size ← okOr ("Unsupported numpy dtype: " ++ String.ofList descr)
              (parseUsize sizeStr)
            let kind ← okOr ("Unsupported numpy dtype: " ++ String.ofList descr)
              (parseKind kindChar)
            return (⟨kind, size⟩, littleEndian)

structure NpyHeader where
  dtype : NpyDtype
  littleEndian : Bool
  fortran : Bool
  shape : List Nat
  dataOffset : Nat

def leBytes (bytes : List UInt8) : Nat :=
  bytes.foldr (fun byte rest => byte.toNat + 256 * rest) 0

def magic : List UInt8 := [0x93, 0x4E, 0x55, 0x4D, 0x50, 0x59]

/-- `str::from_utf8`; the text of its error is the library's. -/
def fromUtf8 (utf8Error : List UInt8 → String) (bytes : List UInt8) : Parse Text :=
  match String.fromUTF8? ⟨bytes.toArray⟩ with
  | some text => .ok text.toList
  | none => fail ("Invalid numpy header: " ++ utf8Error bytes)

/-- The length of the header text, and where it starts. -/
def headerPlace (buffer : List UInt8) : Parse (Nat × Nat) :=
  let major := buffer.getD 6 0
  let minor := buffer.getD 7 0
  if major = 1 then .ok (leBytes ((buffer.take 10).drop 8), 10)
  else if major = 2 ∨ major = 3 then
    if buffer.length < 12 then fail "Numpy buffer too small"
    else .ok (leBytes ((buffer.take 12).drop 8), 12)
  else fail ("Unsupported numpy version " ++ toString major ++ "." ++ toString minor)

variable (utf8Error : List UInt8 → String)

/-- The header text, and where the data starts. -/
def headerText (buffer : List UInt8) : Parse (Text × Nat) := do
  ensure (10 ≤ buffer.length) "Numpy buffer too small"
  ensure (buffer.take 6 = magic) "Invalid numpy magic header"
  let (headerLen, headerStart) ← headerPlace buffer
  let headerEnd ← okOr "Numpy header overflow" (checkedAdd headerStart headerLen)
  let headerBytes ← okOr "Numpy header truncated" (getRange buffer headerStart headerEnd)
  let header ← fromUtf8 utf8Error headerBytes
  return (header, headerEnd)

def parseFields (header : Text) (dataOffset : Nat) : Parse NpyHeader := do
  let descr ← okOr "Numpy header missing descr" (← parseStrValue header "descr")
  let fortran ← okOr "Numpy header missing fortran_order" (← parseBoolValue header "fortran_order")
  let shape ← okOr "Numpy header missing shape" (← parseShape header)
  let (dtype, littleEndian) ← parseDescr descr
  return { dtype, littleEndian, fortran, shape, dataOffset }

def parseNpyHeader (buffer : List UInt8) : Parse NpyHeader := do
  let (header, dataOffset) ← headerText utf8Error buffer
  parseFields header dataOffset

/-- `slice.try_into` an array of that length, read as an unsigned number. -/
def readUnsigned (size : Nat) (slice : List UInt8) (littleEndian : Bool) : Parse Nat :=
  if slice.length = size then .ok (leBytes (if littleEndian then slice else slice.reverse))
  else fail "Numpy data truncated"

def readU8 (slice : List UInt8) : Parse Nat :=
  okOr "Numpy data truncated" (slice.head?.map UInt8.toNat)

/-- An unsigned number cast to the signed one of the same width. -/
def asSigned (width bits : Nat) : Int :=
  if bits < 2 ^ (width - 1) then bits else bits - 2 ^ width

/-- `as f32` of an integer: the nearest number, ties to even. -/
def intAsF32 (number : Int) : Nat := BinaryFormat.single.round (number < 0) number.natAbs 0

/-- `as f32` of a double; a NaN stays one. -/
def doubleAsF32 (bits : Nat) : Nat :=
  match BinaryFormat.double.decode bits with
  | .finite negative significand exponent =>
      BinaryFormat.single.round negative significand exponent
  | .infinite negative => BinaryFormat.single.signBit negative + 0xff * 2 ^ 23
  | .nan negative payload =>
      BinaryFormat.single.signBit negative + 0xff * 2 ^ 23 + (2 ^ 22 ||| payload / 2 ^ 29)

/-- The loop over a subnormal's mantissa: shift until bit 10 is set. -/
def normalize : Nat → Nat → Int → Nat × Int
  | 0, mant, exp => (mant, exp)
  | fuel + 1, mant, exp =>
      if mant &&& 0x400 = 0 then normalize fuel (mant * 2) (exp - 1) else (mant, exp)

def f16ToF32 (bits : Nat) : Nat :=
  let sign := bits >>> 15 &&& 0x1
  let exp := bits >>> 10 &&& 0x1f
  let mant := bits &&& 0x3ff
  if exp = 0 then
    if mant = 0 then sign <<< 31
    else
      -- Ten shifts reach bit 10 from any mantissa that is not zero.
      let (mant, exp) := normalize 10 mant (-1)
      let mant := mant &&& 0x3ff
      let exp32 := (exp + 1 + 127 - 15).toNat
      sign <<< 31 ||| exp32 <<< 23 ||| mant <<< 13
  else if exp = 0x1f then
    let mant32 := if mant = 0 then 0 else mant <<< 13
    sign <<< 31 ||| 0xff <<< 23 ||| mant32
  else
    let exp32 := exp + (127 - 15)
    sign <<< 31 ||| exp32 <<< 23 ||| mant <<< 13

/-- The bits of the `f32` a stored element converts to. -/
def parseScalar (slice : List UInt8) (dtype : NpyDtype) (littleEndian : Bool) : Parse Nat :=
  match dtype.kind, dtype.size with
  | .float, 2 => f16ToF32 <$> readUnsigned 2 slice littleEndian
  | .float, 4 => readUnsigned 4 slice littleEndian
  | .float, 8 => doubleAsF32 <$> readUnsigned 8 slice littleEndian
  | .float, size => fail ("Unsupported float size: " ++ toString size)
  | .int, 1 => (fun bits : Nat => intAsF32 (asSigned 8 bits)) <$> readU8 slice
  | .int, 2 => (fun bits : Nat => intAsF32 (asSigned 16 bits)) <$> readUnsigned 2 slice littleEndian
  | .int, 4 => (fun bits : Nat => intAsF32 (asSigned 32 bits)) <$> readUnsigned 4 slice littleEndian
  | .int, 8 => (fun bits : Nat => intAsF32 (asSigned 64 bits)) <$> readUnsigned 8 slice littleEndian
  | .int, size => fail ("Unsupported int size: " ++ toString size)
  | .uint, 1 => (fun bits : Nat => intAsF32 bits) <$> readU8 slice
  | .uint, 2 => (fun bits : Nat => intAsF32 bits) <$> readUnsigned 2 slice littleEndian
  | .uint, 4 => (fun bits : Nat => intAsF32 bits) <$> readUnsigned 4 slice littleEndian
  | .uint, 8 => (fun bits : Nat => intAsF32 bits) <$> readUnsigned 8 slice littleEndian
  | .uint, size => fail ("Unsupported uint size: " ++ toString size)
  | .bool, 1 => (fun bits : Nat => if bits = 0 then 0 else 0x3f800000) <$> readU8 slice
  | .bool, size => fail ("Unsupported bool size: " ++ toString size)

/-- A header whose data is there. -/
structure Layout where
  header : NpyHeader
  data : List UInt8

/-- The elements of the row that is read. -/
def NpyHeader.rowLen (header : NpyHeader) : Nat :=
  if header.shape.length = 1 then header.shape.getD 0 0 else header.shape.getD 1 0

/-- `shape.iter().product::<usize>()`. -/
def shapeProduct (shape : List Nat) : Parse Nat := shape.foldlM usizeMul 1

def layOut (buffer : List UInt8) : Parse Layout := do
  let header ← parseNpyHeader utf8Error buffer
  ensure (header.shape ≠ []) "Numpy array has empty shape"
  ensure (header.shape.length ≤ 2) "Only 1D or 2D embeddings are supported"
  let totalLen ← shapeProduct header.shape
  let totalBytes ← okOr "Embedding size overflow" (checkedMul totalLen header.dtype.size)
  let stop ← okOr "Embedding data overflow" (checkedAdd header.dataOffset totalBytes)
  let data ← okOr "Numpy data truncated" (getRange buffer header.dataOffset stop)
  return { header, data }

/-- The first row of a Fortran array is every `shape[0]`th element. -/
def NpyHeader.elementIndex (header : NpyHeader) (idx : Nat) : Parse Nat :=
  if header.shape.length = 1 ∨ header.fortran = false then .ok idx
  else okOr "Embedding index overflow" (checkedMul idx (header.shape.getD 0 0))

def Layout.readElement (layout : Layout) (idx : Nat) : Parse Nat := do
  let size := layout.header.dtype.size
  let elemIndex ← layout.header.elementIndex idx
  let start ← usizeMul elemIndex size
  let slice ← okOr "Numpy data truncated" (getRange layout.data start (← usizeAdd start size))
  parseScalar slice layout.header.dtype layout.header.littleEndian

def parseNpyF32 (buffer : List UInt8) : Parse (List Nat) := do
  let layout ← layOut utf8Error buffer
  withCapacity layout.header.rowLen
  (List.range layout.header.rowLen).mapM layout.readElement

/-- `to_le_bytes` of a word of that many bytes. -/
def toLeBytes : Nat → Nat → List UInt8
  | 0, _ => []
  | size + 1, bits => UInt8.ofNat bits :: toLeBytes size (bits / 256)

def serializeF32 (values : List Nat) : List UInt8 := values.flatMap (toLeBytes 4)

def embeddingFromNpyBytes (buffer : List UInt8) : Parse (List UInt8) :=
  serializeF32 <$> parseNpyF32 utf8Error buffer

end Panoptikon.Embedding
