import Panoptikon.Foundation.BinaryFloat
import Panoptikon.Foundation.Fallible

/-!
# The values of the worker protocol

The msgpack values of a frame, the JSON values a model takes and gives, and the
conversions between them from `inferio/worker.rs`, with the error slots of
`inferio/slot_error.rs`. The codec that writes a value as bytes is not part of
the source.
-/

namespace Panoptikon.Inferio

open Foundation

inductive Integer where
  | posInt (value : UInt64)
  | negInt (value : Int64)

def Integer.asU64 : Integer → Option UInt64
  | .posInt value => some value
  | .negInt value => if 0 ≤ value then some value.toUInt64 else none

def Integer.asI64 : Integer → Option Int64
  | .posInt value => if value.toNat < 2 ^ 63 then some value.toInt64 else none
  | .negInt value => some value

inductive Value where
  | nil
  | boolean (value : Bool)
  | integer (value : Integer)
  | f32 (bits : UInt32)
  | f64 (bits : UInt64)
  | string (text : String)
  /-- A string that is not UTF-8. -/
  | rawString (bytes : List UInt8)
  | binary (bytes : List UInt8)
  | array (items : List Value)
  | map (entries : List (Value × Value))
  | ext (tag : Int8) (bytes : List UInt8)

def Value.asStr : Value → Option String
  | .string text => some text
  | _ => none

def Value.asU64 : Value → Option UInt64
  | .integer value => value.asU64
  | _ => none

/-- A number is an `f64` only when it is finite. -/
inductive JsonNumber where
  | posInt (value : UInt64)
  | negInt (value : Int64)
  | float (bits : UInt64)

inductive JsonValue where
  | null
  | bool (value : Bool)
  | number (value : JsonNumber)
  | string (text : String)
  | array (items : List JsonValue)
  | object (entries : List (String × JsonValue))

def JsonNumber.fromI64 (value : Int64) : JsonNumber :=
  if value < 0 then .negInt value else .posInt value.toUInt64

def JsonNumber.fromF64 (bits : UInt64) : Option JsonNumber :=
  if BinaryFormat.double.exponentField bits.toNat = BinaryFormat.double.topField then none
  else some (.float bits)

/-- An insertion keeps the place of a key that is there. -/
def objectInsert (key : String) (value : JsonValue) :
    List (String × JsonValue) → List (String × JsonValue)
  | [] => [(key, value)]
  | entry :: rest =>
      if entry.1 = key then (key, value) :: rest else entry :: objectInsert key value rest

/-- What a codec makes of a value, and the text of a key that is no string. -/
structure Codec where
  writeValue : Value → Except String (List UInt8)
  readValue : List UInt8 → Except String Value
  display : Value → String

def mapGet (entries : List (Value × Value)) (key : String) : Option Value :=
  (entries.find? fun entry => entry.1.asStr = some key).map Prod.snd

/-- A field of a map; what is left of the map is not used. -/
def takeField (entries : List (Value × Value)) (key : String) : Option Value :=
  mapGet entries key

def numberToRmpv : JsonNumber → Value
  | .posInt value => .integer (.posInt value)
  | .negInt value => .integer (.negInt value)
  | .float bits => .f64 bits

mutual

def jsonToRmpv : JsonValue → Value
  | .null => .nil
  | .bool value => .boolean value
  | .number value => numberToRmpv value
  | .string text => .string text
  | .array items => .array (itemsToRmpv items)
  | .object entries => .map (entriesToRmpv entries)

def itemsToRmpv : List JsonValue → List Value
  | [] => []
  | item :: rest => jsonToRmpv item :: itemsToRmpv rest

def entriesToRmpv : List (String × JsonValue) → List (Value × Value)
  | [] => []
  | (key, value) :: rest => (.string key, jsonToRmpv value) :: entriesToRmpv rest

end

/-- Why a value has no JSON form. -/
inductive JsonFault where
  | nonFinite
  | nonUtf8
  | nestedBinary
  | ext (tag : Int8)
  /-- An integer that fits neither `i64` nor `u64`. -/
  | integer

/-- `f64::from` of an `f32`, which every `f32` is exactly. -/
def widen (bits : UInt32) : UInt64 :=
  match BinaryFormat.single.decode bits.toNat with
  | .finite negative significand exponent =>
      .ofNat (BinaryFormat.double.round negative significand exponent)
  | .infinite negative =>
      .ofNat (BinaryFormat.double.signBit negative + BinaryFormat.double.topField * 2 ^ 52)
  | .nan negative _ =>
      .ofNat (BinaryFormat.double.signBit negative + BinaryFormat.double.topField * 2 ^ 52 +
        2 ^ 51)

def numberToJson (bits : UInt64) : Except JsonFault JsonValue :=
  match JsonNumber.fromF64 bits with
  | some value => .ok (.number value)
  | none => .error .nonFinite

def integerToJson (value : Integer) : Except JsonFault JsonValue :=
  match value.asI64 with
  | some signed => .ok (.number (.fromI64 signed))
  | none =>
      match value.asU64 with
      | some unsigned => .ok (.number (.posInt unsigned))
      | none => .error .integer

def Codec.keyText (codec : Codec) (key : Value) : String := key.asStr.getD (codec.display key)

mutual

def rmpvToJson (codec : Codec) : Value → Except JsonFault JsonValue
  | .nil => .ok .null
  | .boolean value => .ok (.bool value)
  | .integer value => integerToJson value
  | .f32 bits => numberToJson (widen bits)
  | .f64 bits => numberToJson bits
  | .string text => .ok (.string text)
  | .rawString _ => .error .nonUtf8
  | .binary _ => .error .nestedBinary
  | .array items => do
      let items ← itemsToJson codec items
      return .array items
  | .map entries => do
      let object ← entriesToJson codec entries []
      return .object object
  | .ext tag _ => .error (.ext tag)

def itemsToJson (codec : Codec) : List Value → Except JsonFault (List JsonValue)
  | [] => .ok []
  | item :: rest => do
      let first ← rmpvToJson codec item
      let others ← itemsToJson codec rest
      return first :: others

def entriesToJson (codec : Codec) :
    List (Value × Value) → List (String × JsonValue) →
      Except JsonFault (List (String × JsonValue))
  | [], object => .ok object
  | (key, value) :: rest, object => do
      let converted ← rmpvToJson codec value
      entriesToJson codec rest (objectInsert (codec.keyText key) converted object)

end

def errorSlotKey : String := "__error__"

inductive SlotErrorClass where
  | input
  | transient
deriving DecidableEq

def SlotErrorClass.parse (text : String) : Option SlotErrorClass :=
  if text = "input" then some .input
  else if text = "transient" then some .transient
  else none

structure SlotError where
  errorClass : SlotErrorClass
  message : String

inductive SlotFault where
  | notAMap
  | noClass
  | unknownClass (text : String)
  | noMessage

def slotErrorFromParts (errorClass message : Option String) : Except SlotFault SlotError :=
  match errorClass with
  | none => .error .noClass
  | some text =>
      match SlotErrorClass.parse text with
      | none => .error (.unknownClass text)
      | some parsed =>
          match message with
          | none => .error .noMessage
          | some message => .ok ⟨parsed, message⟩

/-- `none` for an ordinary payload. -/
def errorSlotFromRmpv : Value → Option (Except SlotFault SlotError)
  | .map entries =>
      match mapGet entries errorSlotKey with
      | none => none
      | some (.map body) =>
          some (slotErrorFromParts ((mapGet body "class").bind Value.asStr)
            ((mapGet body "message").bind Value.asStr))
      | some _ => some (.error .notAMap)
  | _ => none

structure WorkerInput where
  data : Option JsonValue
  file : Option (List UInt8)

def WorkerInput.entry (input : WorkerInput) : Value :=
  .map [(.string "data", (input.data.map jsonToRmpv).getD .nil),
    (.string "file", (input.file.map Value.binary).getD .nil)]

inductive WorkerOutput where
  | bytes (bytes : List UInt8)
  | json (value : JsonValue)
  | error (error : SlotError)

end Panoptikon.Inferio
