import Panoptikon.Embedding.Faults
import Panoptikon.Foundation.TextParts

/-!
# Embeddings of a model's output

`parse_npy_to_f32_rows` of `output_handlers/embeddings.rs`, written apart from the
search side's `parse_npy_f32`. The same computations with errors and faults.
-/

namespace Panoptikon.Embedding.Output

open Foundation

def depthLimit : Int := 2 ^ 31

/-- The first comma outside parentheses, as an offset in bytes; none is found as `0`. -/
def fieldEnd (depth : Int) (offset : Nat) : Text → Parse Nat
  | [] => .ok 0
  | '(' :: rest =>
      if depth + 1 < depthLimit then fieldEnd (depth + 1) (offset + 1) rest
      else .error (.panic .overflow)
  | ')' :: rest => fieldEnd (max (depth - 1) (-depthLimit)) (offset + 1) rest
  | ',' :: rest => if depth = 0 then .ok offset else fieldEnd depth (offset + 1) rest
  | char :: rest => fieldEnd depth (offset + char.utf8Size) rest

def needle (key : String) : Text := quoted '\'' key ++ [':']

def parseNpyField (header : Text) (key : String) : Parse (Option Text) := do
  match Text.find (needle key) header with
  | none => return none
  | some idx =>
      let behind ← sliced (Text.sliceFrom header (← usizeAdd idx (Text.byteLength (needle key))))
      let rest := behind.trimStart
      let found ← fieldEnd 0 0 rest
      let value ← sliced (Text.sliceTo rest (if found = 0 then Text.byteLength rest else found))
      return some (Text.trimChar '\'' value.trim)

def isParen (char : Char) : Bool := char = '(' || char = ')'

/-- `trim_matches` of both parentheses. -/
def trimParens (text : Text) : Text := ((text.dropWhile isParen).reverse.dropWhile isParen).reverse

def parseShape (shapeStr : Text) : Parse (List Nat) := do
  let trimmed := trimParens shapeStr.trim
  ensure (trimmed ≠ []) "Invalid NPY shape"
  let dims ← okOr "Invalid NPY shape" (parseParts (trimmed.splitOn ','))
  ensure (dims ≠ []) "Invalid NPY shape"
  return dims

inductive FloatType where
  | f2
  | f4
  | f8

def FloatType.elemSize : FloatType → Nat
  | .f2 => 2
  | .f4 => 4
  | .f8 => 8

/-- Half precision to single; the loop is at most ten shifts of a mantissa that is not zero. -/
def f16ToF32 (bits : Nat) : Nat :=
  let sign := bits >>> 15 <<< 31
  let exp := bits >>> 10 &&& 0x1f
  let frac := bits &&& 0x3ff
  if exp = 0 then
    if frac = 0 then sign
    else
      let normal := normalize 10 frac (-14)
      sign ||| (normal.2 + 127).toNat <<< 23 ||| (normal.1 &&& 0x3ff) <<< 13
  else if exp = 0x1f then sign ||| 0xff <<< 23 ||| frac <<< 13
  else sign ||| (exp + 127 - 15) <<< 23 ||| frac <<< 13

def FloatType.decode (float : FloatType) (chunk : List UInt8) : Nat :=
  match float with
  | .f2 => f16ToF32 (leBytes chunk)
  | .f4 => leBytes chunk
  | .f8 => doubleAsF32 (leBytes chunk)

def floatType (descr : Text) : Parse FloatType :=
  if descr = "<f2".toList then .ok .f2
  else if descr = "<f4".toList then .ok .f4
  else if descr = "<f8".toList then .ok .f8
  else fail ("Unsupported NPY dtype: " ++ String.ofList descr)

/-- The length of the header text, and where it starts; four bytes of length are indexed unchecked. -/
def headerPlace (buffer : List UInt8) : Parse (Nat × Nat) :=
  let major := buffer.getD 6 0
  if major = 1 then .ok (leBytes ((buffer.take 10).drop 8), 10)
  else if major = 2 ∨ major = 3 then
    if buffer.length < 12 then .error (.panic .slice)
    else .ok (leBytes ((buffer.take 12).drop 8), 12)
  else fail "Unsupported NPY version"

def fromUtf8 (bytes : List UInt8) : Parse Text :=
  okOr "Invalid NPY header" ((String.fromUTF8? ⟨bytes.toArray⟩).map String.toList)

/-- The header text, and where the data starts. -/
def headerText (buffer : List UInt8) : Parse (Text × Nat) := do
  ensure (10 ≤ buffer.length ∧ buffer.take 6 = magic) "Invalid NPY buffer"
  let place ← headerPlace buffer
  let headerEnd ← usizeAdd place.2 place.1
  ensure (headerEnd ≤ buffer.length) "Invalid NPY header"
  let header ← fromUtf8 ((buffer.take headerEnd).drop place.2)
  return (header, headerEnd)

/-- `chunks_exact`, whatever is left behind. -/
def chunksExact (size : Nat) (bytes : List UInt8) : List (List UInt8) :=
  (List.range (bytes.length / size)).map fun index => (bytes.drop (index * size)).take size

def parseFields (header : Text) : Parse (FloatType × List Nat) := do
  let descr ← okOr "NPY descr missing" (← parseNpyField header "descr")
  let float ← floatType descr
  let fortran := (← parseNpyField header "fortran_order").getD "False".toList
  ensure (fortran.trim = "False".toList) "Fortran order not supported"
  let shapeStr ← okOr "NPY shape missing" (← parseNpyField header "shape")
  let shape ← parseShape shapeStr
  return (float, shape)

/-- The elements behind the header. -/
def readData (buffer : List UInt8) (dataStart : Nat) (float : FloatType) (shape : List Nat) :
    Parse (List Nat) := do
  let expected ← usizeMul (← shape.foldlM usizeMul 1) float.elemSize
  let stop ← usizeAdd dataStart expected
  ensure (stop ≤ buffer.length) "NPY data truncated"
  withCapacity (expected / float.elemSize)
  return (chunksExact float.elemSize ((buffer.take stop).drop dataStart)).map float.decode

def parseNpy (buffer : List UInt8) : Parse (List Nat × List Nat) := do
  let text ← headerText buffer
  let fields ← parseFields text.1
  let data ← readData buffer text.2 fields.1 fields.2
  return (fields.2, data)

/-- The bytes of a `Vec<f32>` itself. -/
def vecSize : Nat := 24

/-- `Vec::<Vec<f32>>::with_capacity`. -/
def rowsCapacity (rows : Nat) : Parse Unit :=
  if rows * vecSize < isizeLimit then .ok () else .error (.panic .capacity)

/-- The slice of a row: its bounds are sums and products of words. -/
def rowSlice (data : List Nat) (columns row : Nat) : Parse (List Nat) := do
  let start ← usizeMul row columns
  let stop ← usizeAdd start columns
  if stop ≤ data.length then return (data.drop start).take columns else .error (.panic .slice)

def parseNpyToF32Rows (buffer : List UInt8) : Parse (List (List Nat)) := do
  let parsed ← parseNpy buffer
  match parsed.1 with
  | [_] => return [parsed.2]
  | [rows, columns] => do
      let cells ← usizeMul rows columns
      ensure (cells = parsed.2.length) "Embedding shape mismatch"
      rowsCapacity rows
      (List.range rows).mapM (rowSlice parsed.2 columns)
  | _ => fail "Expected 1D or 2D embedding"

end Panoptikon.Embedding.Output
