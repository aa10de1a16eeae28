import Panoptikon.Foundation.JsonText
import Panoptikon.Foundation.MessagePack
import Panoptikon.Inferio.Windows

/-!
# The byte budget of a predict frame

Admission measures a batch by the JSON text of its data and the bytes of its
files, and the frame is MessagePack. Only a float, which takes nine bytes however
short its text, can make a frame outgrow the margin between the two.
-/

namespace Panoptikon.Inferio

open Foundation Foundation.MessagePack Foundation.JsonText

def packInteger : Integer → List UInt8
  | .posInt value => packUInt value.toNat
  | .negInt value => packInt value.toInt

mutual

/-- A value as the MessagePack specification writes it. -/
def Value.packed : Value → List UInt8
  | .nil => [0xc0]
  | .boolean value => [if value then 0xc3 else 0xc2]
  | .integer value => packInteger value
  | .f32 bits => 0xca :: bigEndian 4 bits.toNat
  | .f64 bits => 0xcb :: bigEndian 8 bits.toNat
  | .string text => stringHead (size text.toList) ++ Text.utf8 text.toList
  | .rawString bytes => stringHead bytes.length ++ bytes
  | .binary bytes => binaryHead bytes.length ++ bytes
  | .array items => arrayHead items.length ++ packedItems items
  | .map entries => mapHead entries.length ++ packedEntries entries
  | .ext tag bytes => extHead bytes.length ++ tag.toUInt8 :: bytes

def packedItems : List Value → List UInt8
  | [] => []
  | item :: rest => item.packed ++ packedItems rest

def packedEntries : List (Value × Value) → List UInt8
  | [] => []
  | (key, value) :: rest => key.packed ++ value.packed ++ packedEntries rest

end

mutual

/-- What JSON and files are made to: every length fits its head. -/
def Value.Plain : Value → Prop
  | .nil => True
  | .boolean _ => True
  | .integer _ => True
  | .f32 _ => True
  | .f64 _ => True
  | .string text => size text.toList < 2 ^ 32
  | .rawString _ => False
  | .binary bytes => bytes.length < 2 ^ 32
  | .array items => items.length < 2 ^ 32 ∧ PlainItems items
  | .map entries => entries.length < 2 ^ 32 ∧ PlainEntries entries
  | .ext _ _ => False

def PlainItems : List Value → Prop
  | [] => True
  | item :: rest => item.Plain ∧ PlainItems rest

def PlainEntries : List (Value × Value) → Prop
  | [] => True
  | (key, value) :: rest => key.Plain ∧ value.Plain ∧ PlainEntries rest

end

/-- The codec writes what the specification says. -/
def Codec.Packs (codec : Codec) : Prop := ∀ value : Value, value.Plain → codec.writeValue value = .ok value.packed

/-- `serde_json` as a printer, and the shortest text of a float. -/
structure JsonPrinter where
  toText : JsonValue → Text
  floatText : UInt64 → Text

def numberText (floatText : UInt64 → Text) : JsonNumber → Text
  | .posInt value => intText value.toNat
  | .negInt value => intText value.toInt
  | .float bits => floatText bits

mutual

/-- A value without a space outside its strings. -/
def JsonValue.compact (floatText : UInt64 → Text) : JsonValue → Text
  | .null => ['n', 'u', 'l', 'l']
  | .bool value => if value then ['t', 'r', 'u', 'e'] else ['f', 'a', 'l', 's', 'e']
  | .number value => numberText floatText value
  | .string text => quote text.toList
  | .array items => '[' :: (compactItems floatText items ++ [']'])
  | .object entries => '\x7b' :: (compactEntries floatText entries ++ ['\x7d'])

def compactItems (floatText : UInt64 → Text) : List JsonValue → Text
  | [] => []
  | item :: rest =>
      item.compact floatText ++ (if rest.isEmpty then [] else [',']) ++ compactItems floatText rest

def compactEntries (floatText : UInt64 → Text) : List (String × JsonValue) → Text
  | [] => []
  | (key, value) :: rest =>
      quote key.toList ++ ':' :: value.compact floatText ++ (if rest.isEmpty then [] else [',']) ++
        compactEntries floatText rest

end

def JsonPrinter.Compact (printer : JsonPrinter) : Prop :=
  ∀ value : JsonValue, printer.toText value = value.compact printer.floatText

def estimateInputBytes (printer : JsonPrinter) (input : WorkerInput) : Nat :=
  let data := (input.data.map fun value => size (printer.toText value)).getD 0
  let file := (input.file.map List.length).getD 0
  data + file + 64

/-- The estimate of a batch. -/
def estimateBatchBytes (printer : JsonPrinter) (inputs : List WorkerInput) : Nat :=
  (inputs.map (estimateInputBytes printer)).sum

mutual

/-- The floats of a value, in their order. -/
def JsonValue.floats : JsonValue → List UInt64
  | .null => []
  | .bool _ => []
  | .number (.float bits) => [bits]
  | .number (.posInt _) => []
  | .number (.negInt _) => []
  | .string _ => []
  | .array items => floatsOfItems items
  | .object entries => floatsOfEntries entries

def floatsOfItems : List JsonValue → List UInt64
  | [] => []
  | item :: rest => item.floats ++ floatsOfItems rest

def floatsOfEntries : List (String × JsonValue) → List UInt64
  | [] => []
  | (_, value) :: rest => value.floats ++ floatsOfEntries rest

end

def WorkerInput.floats (input : WorkerInput) : List UInt64 := (input.data.map JsonValue.floats).getD []

/-- By how much the floats of a batch outgrow their texts. -/
def floatGrowth (printer : JsonPrinter) (inputs : List WorkerInput) : Int :=
  ((inputs.flatMap WorkerInput.floats).map fun bits => 9 - (size (printer.floatText bits) : Int)).sum

mutual

/-- The bytes of a value whose floats take as many bytes as said. -/
def JsonValue.packedBytes (floatBytes : UInt64 → Nat) : JsonValue → Nat
  | .null => 1
  | .bool _ => 1
  | .number (.float bits) => floatBytes bits
  | .number (.posInt value) => (packUInt value.toNat).length
  | .number (.negInt value) => (packInt value.toInt).length
  | .string text => (stringHead (size text.toList)).length + size text.toList
  | .array items => (arrayHead items.length).length + itemsBytes floatBytes items
  | .object entries => (mapHead entries.length).length + entriesBytes floatBytes entries

def itemsBytes (floatBytes : UInt64 → Nat) : List JsonValue → Nat
  | [] => 0
  | item :: rest => item.packedBytes floatBytes + itemsBytes floatBytes rest

def entriesBytes (floatBytes : UInt64 → Nat) : List (String × JsonValue) → Nat
  | [] => 0
  | (key, value) :: rest =>
      (stringHead (size key.toList)).length + size key.toList + value.packedBytes floatBytes +
        entriesBytes floatBytes rest

end

def WorkerInput.entryBytes (floatBytes : UInt64 → Nat) (input : WorkerInput) : Nat :=
  11 + (input.data.map (JsonValue.packedBytes floatBytes)).getD 1 +
    (input.file.map fun file => (binaryHead file.length).length + file.length).getD 1

def frameBytes (floatBytes : UInt64 → Nat) (id : UInt64) (inputs : List WorkerInput) : Nat :=
  24 + (packUInt id.toNat).length + (arrayHead inputs.length).length +
    (inputs.map (WorkerInput.entryBytes floatBytes)).sum

/-- What the frame would leave free if each float took as many bytes as its text. -/
def frameRoom (printer : JsonPrinter) (id : UInt64) (inputs : List WorkerInput) : Int :=
  maxFrameBytes - frameBytes (fun bits => size (printer.floatText bits)) id inputs

theorem items_to_rmpv_length (items : List JsonValue) : (itemsToRmpv items).length = items.length := by
  induction items with
  | nil => rw [itemsToRmpv]; rfl
  | cons item rest ih => rw [itemsToRmpv, List.length_cons, List.length_cons, ih]

theorem entries_to_rmpv_length (entries : List (String × JsonValue)) :
    (entriesToRmpv entries).length = entries.length := by
  induction entries with
  | nil => rw [entriesToRmpv]; rfl
  | cons entry rest ih =>
    obtain ⟨key, value⟩ := entry
    rw [entriesToRmpv, List.length_cons, List.length_cons, ih]

mutual

theorem json_packed_length : ∀ value : JsonValue, (jsonToRmpv value).packed.length = value.packedBytes fun _ => 9
  | .null => by rw [jsonToRmpv, Value.packed, JsonValue.packedBytes]; rfl
  | .bool _ => by rw [jsonToRmpv, Value.packed, JsonValue.packedBytes]; rfl
  | .number (.posInt _) => by
      rw [jsonToRmpv, numberToRmpv, Value.packed, JsonValue.packedBytes, packInteger]
  | .number (.negInt _) => by
      rw [jsonToRmpv, numberToRmpv, Value.packed, JsonValue.packedBytes, packInteger]
  | .number (.float _) => by
      rw [jsonToRmpv, numberToRmpv, Value.packed, JsonValue.packedBytes, List.length_cons, big_endian_length]
  | .string text => by
      rw [jsonToRmpv, Value.packed, JsonValue.packedBytes, List.length_append]
      rfl
  | .array items => by
      rw [jsonToRmpv, Value.packed, JsonValue.packedBytes, List.length_append, items_to_rmpv_length,
        items_packed_length items]
  | .object entries => by
      rw [jsonToRmpv, Value.packed, JsonValue.packedBytes, List.length_append, entries_to_rmpv_length,
        entries_packed_length entries]

theorem items_packed_length : ∀ items : List JsonValue,
    (packedItems (itemsToRmpv items)).length = itemsBytes (fun _ => 9) items
  | [] => by rw [itemsToRmpv, packedItems, itemsBytes]; rfl
  | item :: rest => by
      rw [itemsToRmpv, packedItems, itemsBytes, List.length_append, json_packed_length item,
        items_packed_length rest]

theorem entries_packed_length : ∀ entries : List (String × JsonValue),
    (packedEntries (entriesToRmpv entries)).length = entriesBytes (fun _ => 9) entries
  | [] => by rw [entriesToRmpv, packedEntries, entriesBytes]; rfl
  | (key, value) :: rest => by
      rw [entriesToRmpv, packedEntries, entriesBytes, List.length_append, List.length_append, Value.packed,
        List.length_append, json_packed_length value, entries_packed_length rest]
      rfl

end

mutual

/-- Counting the floats otherwise changes the bytes by the difference of each. -/
theorem packed_bytes_floats (few many : UInt64 → Nat) : ∀ value : JsonValue,
    (value.packedBytes many : Int) =
      value.packedBytes few + (value.floats.map fun bits => (many bits : Int) - few bits).sum
  | .null => by rw [JsonValue.packedBytes, JsonValue.packedBytes, JsonValue.floats]; rfl
  | .bool _ => by rw [JsonValue.packedBytes, JsonValue.packedBytes, JsonValue.floats]; rfl
  | .number (.posInt _) => by
      rw [JsonValue.packedBytes, JsonValue.packedBytes, JsonValue.floats, List.map_nil, List.sum_nil, Int.add_zero]
  | .number (.negInt _) => by
      rw [JsonValue.packedBytes, JsonValue.packedBytes, JsonValue.floats, List.map_nil, List.sum_nil, Int.add_zero]
  | .number (.float bits) => by
      rw [JsonValue.packedBytes, JsonValue.packedBytes, JsonValue.floats, List.map_singleton, List.sum_singleton]
      omega
  | .string _ => by
      rw [JsonValue.packedBytes, JsonValue.packedBytes, JsonValue.floats, List.map_nil, List.sum_nil, Int.add_zero]
  | .array items => by
      have inside := items_bytes_floats few many items
      rw [JsonValue.packedBytes, JsonValue.packedBytes, JsonValue.floats]
      omega
  | .object entries => by
      have inside := entries_bytes_floats few many entries
      rw [JsonValue.packedBytes, JsonValue.packedBytes, JsonValue.floats]
      omega

theorem items_bytes_floats (few many : UInt64 → Nat) : ∀ items : List JsonValue,
    (itemsBytes many items : Int) =
      itemsBytes few items + ((floatsOfItems items).map fun bits => (many bits : Int) - few bits).sum
  | [] => by rw [itemsBytes, itemsBytes, floatsOfItems]; rfl
  | item :: rest => by
      have first := packed_bytes_floats few many item
      have others := items_bytes_floats few many rest
      rw [itemsBytes, itemsBytes, floatsOfItems, List.map_append, List.sum_append]
      omega

theorem entries_bytes_floats (few many : UInt64 → Nat) : ∀ entries : List (String × JsonValue),
    (entriesBytes many entries : Int) =
      entriesBytes few entries + ((floatsOfEntries entries).map fun bits => (many bits : Int) - few bits).sum
  | [] => by rw [entriesBytes, entriesBytes, floatsOfEntries]; rfl
  | (key, value) :: rest => by
      have first := packed_bytes_floats few many value
      have others := entries_bytes_floats few many rest
      rw [entriesBytes, entriesBytes, floatsOfEntries, List.map_append, List.sum_append]
      omega

end

theorem number_bytes_le (floatText : UInt64 → Text) (value : JsonNumber) :
    (JsonValue.number value).packedBytes (fun bits => size (floatText bits)) ≤ size (numberText floatText value) := by
  cases value with
  | posInt value =>
    rw [JsonValue.packedBytes, numberText, intText, if_neg (by omega)]
    exact Nat.le_trans (pack_uint_length_le_digits _) (length_le_size _)
  | negInt value =>
    rw [JsonValue.packedBytes, numberText]
    by_cases negative : value.toInt < 0
    · rw [intText, if_pos negative]
      exact Nat.le_trans (pack_int_length_le_digits negative) (length_le_size (_ :: _))
    · rw [intText, if_neg negative, packInt, if_pos (by omega), show value.toInt.toNat = value.toInt.natAbs by omega]
      exact Nat.le_trans (pack_uint_length_le_digits _) (length_le_size _)
  | float bits =>
    rw [JsonValue.packedBytes, numberText]

theorem string_bytes_le (text : Text) :
    15 * ((stringHead (size text)).length + size text) ≤ 15 * size (quote text) + 14 + size (quote text) / 258 := by
  have head := string_head_length_le (size text)
  have quoted := quote_size_ge text
  omega

theorem comma_size (last : Bool) : size (if last then [] else [',']) = if last then 0 else 1 := by
  cases last <;> rfl

mutual

/-- Each value may have less than a byte more than its text, and strings beyond 255
bytes and long lists, which are rare in a text, a few. -/
theorem packed_bytes_le (floatText : UInt64 → Text) : ∀ value : JsonValue,
    15 * value.packedBytes (fun bits => size (floatText bits)) ≤
      15 * size (value.compact floatText) + 14 + size (value.compact floatText) / 258
  | .null => by
      rw [JsonValue.packedBytes, JsonValue.compact]
      decide
  | .bool value => by
      rw [JsonValue.packedBytes, JsonValue.compact]
      cases value <;> decide
  | .number value => by
      have number := number_bytes_le floatText value
      rw [JsonValue.compact]
      omega
  | .string text => by
      rw [JsonValue.packedBytes, JsonValue.compact]
      exact string_bytes_le text.toList
  | .array items => by
      have inside := items_bytes_le floatText items
      have head := array_head_length_le items.length
      have close : size [']'] = 1 := rfl
      have start : '['.utf8Size = 1 := rfl
      rw [JsonValue.packedBytes, JsonValue.compact, size_cons, size_append, close, start]
      omega
  | .object entries => by
      have inside := entries_bytes_le floatText entries
      have head := map_head_length_le entries.length
      have close : size ['\x7d'] = 1 := rfl
      have start : '\x7b'.utf8Size = 1 := rfl
      rw [JsonValue.packedBytes, JsonValue.compact, size_cons, size_append, close, start]
      omega

theorem items_bytes_le (floatText : UInt64 → Text) : ∀ items : List JsonValue,
    15 * itemsBytes (fun bits => size (floatText bits)) items + items.length ≤
      15 * (size (compactItems floatText items) + 1) + size (compactItems floatText items) / 258
  | [] => by
      rw [itemsBytes, compactItems]
      decide
  | item :: rest => by
      have first := packed_bytes_le floatText item
      have others := items_bytes_le floatText rest
      rw [itemsBytes, compactItems, size_append, size_append, comma_size, List.length_cons]
      cases rest with
      | nil =>
        rw [itemsBytes, compactItems, List.isEmpty_nil, if_pos rfl, size_nil, List.length_nil]
        omega
      | cons second later =>
        rw [List.isEmpty_cons, if_neg Bool.false_ne_true]
        omega

theorem entries_bytes_le (floatText : UInt64 → Text) : ∀ entries : List (String × JsonValue),
    15 * entriesBytes (fun bits => size (floatText bits)) entries + entries.length ≤
      15 * (size (compactEntries floatText entries) + 1) + size (compactEntries floatText entries) / 258
  | [] => by
      rw [entriesBytes, compactEntries]
      decide
  | (key, value) :: rest => by
      have name := string_bytes_le key.toList
      have first := packed_bytes_le floatText value
      have others := entries_bytes_le floatText rest
      have colon : ':'.utf8Size = 1 := rfl
      rw [entriesBytes, compactEntries, size_append, size_append, size_append, size_cons, comma_size, colon,
        List.length_cons]
      cases rest with
      | nil =>
        rw [entriesBytes, compactEntries, List.isEmpty_nil, if_pos rfl, size_nil, List.length_nil]
        omega
      | cons second later =>
        rw [List.isEmpty_cons, if_neg Bool.false_ne_true]
        omega

end

theorem entry_bytes_le {printer : JsonPrinter} (compact : printer.Compact) (input : WorkerInput) :
    15 * (input.entryBytes (fun bits => size (printer.floatText bits)) + 47) ≤
      15 * estimateInputBytes printer input + estimateInputBytes printer input / 258 := by
  obtain ⟨data, file⟩ := input
  have dataBytes : 15 * (data.map (JsonValue.packedBytes fun bits => size (printer.floatText bits))).getD 1 ≤
      15 * (data.map fun value => size (printer.toText value)).getD 0 + 15 +
        (data.map fun value => size (printer.toText value)).getD 0 / 258 := by
    cases data with
    | none =>
      rw [Option.map_none, Option.map_none, Option.getD_none, Option.getD_none]
    | some value =>
      have inside := packed_bytes_le printer.floatText value
      rw [← compact value] at inside
      rw [Option.map_some, Option.map_some, Option.getD_some, Option.getD_some]
      omega
  have fileBytes : (file.map fun file => (binaryHead file.length).length + file.length).getD 1 ≤
      (file.map List.length).getD 0 + 5 := by
    cases file with
    | none => decide
    | some bytes =>
      have head := binary_head_length_le bytes.length
      rw [Option.map_some, Option.map_some, Option.getD_some, Option.getD_some]
      omega
  rw [WorkerInput.entryBytes, estimateInputBytes]
  dsimp only
  omega

theorem batch_bytes_le {printer : JsonPrinter} (compact : printer.Compact) (inputs : List WorkerInput) :
    15 * ((inputs.map (WorkerInput.entryBytes fun bits => size (printer.floatText bits))).sum + 47 * inputs.length) ≤
      15 * estimateBatchBytes printer inputs + estimateBatchBytes printer inputs / 258 := by
  induction inputs with
  | nil => exact Nat.zero_le _
  | cons input rest ih =>
    have first := entry_bytes_le compact input
    rw [estimateBatchBytes, List.map_cons, List.map_cons, List.sum_cons, List.sum_cons, ← estimateBatchBytes,
      List.length_cons]
    generalize estimateBatchBytes printer rest = others at ih ⊢
    generalize estimateInputBytes printer input = one at first ⊢
    generalize WorkerInput.entryBytes _ input = bytes at first ⊢
    generalize (List.map (WorkerInput.entryBytes _) rest).sum = otherBytes at ih ⊢
    omega

theorem frame_room_ge {printer : JsonPrinter} (compact : printer.Compact) (id : UInt64) {inputs : List WorkerInput}
    (within : estimateBatchBytes printer inputs ≤ Dispatch.frameInputBytesBudget) :
    7 * 1024 * 1024 ≤ frameRoom printer id inputs := by
  have batch := batch_bytes_le compact inputs
  have head := array_head_length_le inputs.length
  have name := pack_uint_length_le id.toNat
  have budget : Dispatch.frameInputBytesBudget = 2139095040 := rfl
  have limit : maxFrameBytes = 2147483648 := rfl
  rw [frameRoom, frameBytes, limit]
  omega

theorem items_to_rmpv_plain_of {items : List Value} (plain : ∀ item ∈ items, item.Plain) : PlainItems items := by
  induction items with
  | nil => trivial
  | cons item rest ih =>
    exact ⟨plain item List.mem_cons_self, ih fun later member => plain later (List.mem_cons_of_mem _ member)⟩

theorem count_behind_comma {Item : Type} (rest : List Item) {front behind : Nat} (counted : rest.length ≤ behind + 1) :
    rest.length + 1 ≤ front + (if rest.isEmpty then 0 else 1) + behind + 1 := by
  cases rest with
  | nil => exact Nat.le_add_left _ _
  | cons second later =>
    rw [List.isEmpty_cons, if_neg Bool.false_ne_true]
    omega

theorem items_count_le (floatText : UInt64 → Text) (items : List JsonValue) :
    items.length ≤ size (compactItems floatText items) + 1 := by
  induction items with
  | nil => exact Nat.zero_le _
  | cons item rest ih =>
    rw [compactItems, size_append, size_append, comma_size, List.length_cons]
    exact count_behind_comma rest ih

theorem entries_count_le (floatText : UInt64 → Text) (entries : List (String × JsonValue)) :
    entries.length ≤ size (compactEntries floatText entries) + 1 := by
  induction entries with
  | nil => exact Nat.zero_le _
  | cons entry rest ih =>
    obtain ⟨key, value⟩ := entry
    rw [compactEntries, size_append, size_append, comma_size, List.length_cons]
    exact count_behind_comma rest ih

mutual

theorem json_plain (floatText : UInt64 → Text) : ∀ value : JsonValue,
    size (value.compact floatText) < 2 ^ 32 → (jsonToRmpv value).Plain
  | .null, _ => by rw [jsonToRmpv, Value.Plain]; trivial
  | .bool _, _ => by rw [jsonToRmpv, Value.Plain]; trivial
  | .number (.posInt _), _ => by rw [jsonToRmpv, numberToRmpv, Value.Plain]; trivial
  | .number (.negInt _), _ => by rw [jsonToRmpv, numberToRmpv, Value.Plain]; trivial
  | .number (.float _), _ => by rw [jsonToRmpv, numberToRmpv, Value.Plain]; trivial
  | .string text, short => by
      have quoted := quote_size_ge text.toList
      rw [JsonValue.compact] at short
      rw [jsonToRmpv, Value.Plain]
      omega
  | .array items, short => by
      have count := items_count_le floatText items
      have close : size [']'] = 1 := rfl
      have start : '['.utf8Size = 1 := rfl
      rw [JsonValue.compact, size_cons, size_append, close, start] at short
      rw [jsonToRmpv, Value.Plain, items_to_rmpv_length]
      exact ⟨by omega, items_plain floatText items (by omega)⟩
  | .object entries, short => by
      have count := entries_count_le floatText entries
      have close : size ['\x7d'] = 1 := rfl
      have start : '\x7b'.utf8Size = 1 := rfl
      rw [JsonValue.compact, size_cons, size_append, close, start] at short
      rw [jsonToRmpv, Value.Plain, entries_to_rmpv_length]
      exact ⟨by omega, entries_plain floatText entries (by omega)⟩

theorem items_plain (floatText : UInt64 → Text) : ∀ items : List JsonValue,
    size (compactItems floatText items) < 2 ^ 32 → PlainItems (itemsToRmpv items)
  | [], _ => by rw [itemsToRmpv, PlainItems]; trivial
  | item :: rest, short => by
      rw [compactItems, size_append, size_append] at short
      rw [itemsToRmpv, PlainItems]
      exact ⟨json_plain floatText item (by omega), items_plain floatText rest (by omega)⟩

theorem entries_plain (floatText : UInt64 → Text) : ∀ entries : List (String × JsonValue),
    size (compactEntries floatText entries) < 2 ^ 32 → PlainEntries (entriesToRmpv entries)
  | [], _ => by rw [entriesToRmpv, PlainEntries]; trivial
  | (key, value) :: rest, short => by
      have quoted := quote_size_ge key.toList
      rw [compactEntries, size_append, size_append, size_append, size_cons] at short
      rw [entriesToRmpv, PlainEntries, Value.Plain]
      exact ⟨by omega, json_plain floatText value (by omega), entries_plain floatText rest (by omega)⟩

end

theorem estimate_le_batch {printer : JsonPrinter} {inputs : List WorkerInput} {input : WorkerInput}
    (member : input ∈ inputs) : estimateInputBytes printer input ≤ estimateBatchBytes printer inputs := by
  obtain ⟨before, after, rfl⟩ := List.append_of_mem member
  rw [estimateBatchBytes, List.map_append, List.map_cons, List.sum_append, List.sum_cons]
  omega

theorem entry_plain {printer : JsonPrinter} (compact : printer.Compact) {input : WorkerInput}
    (short : estimateInputBytes printer input < 2 ^ 32) : input.entry.Plain := by
  obtain ⟨data, file⟩ := input
  rw [estimateInputBytes] at short
  dsimp only at short
  have dataPlain : ((data.map jsonToRmpv).getD .nil).Plain := by
    cases data with
    | none =>
      rw [Option.map_none, Option.getD_none, Value.Plain]
      trivial
    | some value =>
      rw [Option.map_some, Option.getD_some] at short ⊢
      rw [compact value] at short
      exact json_plain printer.floatText value (by omega)
  have filePlain : ((file.map Value.binary).getD .nil).Plain := by
    cases file with
    | none =>
      rw [Option.map_none, Option.getD_none, Value.Plain]
      trivial
    | some bytes =>
      rw [Option.map_some, Option.getD_some, Value.Plain]
      rw [Option.map_some, Option.getD_some] at short
      omega
  rw [WorkerInput.entry, Value.Plain, PlainEntries, PlainEntries, PlainEntries, Value.Plain, Value.Plain]
  refine ⟨?_, by decide, dataPlain, by decide, filePlain, trivial⟩
  rw [List.length_cons, List.length_singleton]
  omega

theorem count_le_batch (printer : JsonPrinter) (inputs : List WorkerInput) :
    inputs.length ≤ estimateBatchBytes printer inputs := by
  induction inputs with
  | nil => exact Nat.zero_le _
  | cons input rest ih =>
    have positive : 1 ≤ estimateInputBytes printer input := by
      rw [estimateInputBytes]
      omega
    rw [estimateBatchBytes, List.map_cons, List.sum_cons, ← estimateBatchBytes, List.length_cons]
    omega

theorem frame_plain {printer : JsonPrinter} (compact : printer.Compact) (id : UInt64) {inputs : List WorkerInput}
    (short : estimateBatchBytes printer inputs < 2 ^ 32) : ((Request.predict inputs).frame id).Plain := by
  have count := count_le_batch printer inputs
  have entries : PlainItems (inputs.map WorkerInput.entry) := by
    apply items_to_rmpv_plain_of
    intro value member
    obtain ⟨input, isInput, rfl⟩ := List.mem_map.mp member
    exact entry_plain compact (Nat.lt_of_le_of_lt (estimate_le_batch isInput) short)
  change Value.Plain (.map [(.string "type", .string "predict"), (.string "id", .integer (.posInt id)),
    (.string "inputs", .array (inputs.map WorkerInput.entry))])
  simp only [Value.Plain, PlainEntries]
  refine ⟨?_, by decide, by decide, by decide, trivial, by decide, ⟨?_, entries⟩, trivial⟩
  · rw [List.length_cons, List.length_cons, List.length_singleton]
    omega
  · rw [List.length_map]
    omega

theorem entry_packed_length (input : WorkerInput) : input.entry.packed.length = input.entryBytes fun _ => 9 := by
  obtain ⟨data, file⟩ := input
  have dataLength : ((data.map jsonToRmpv).getD .nil).packed.length =
      (data.map (JsonValue.packedBytes fun _ => 9)).getD 1 := by
    cases data with
    | none =>
      rw [Option.map_none, Option.getD_none, Value.packed]
      rfl
    | some value =>
      rw [Option.map_some, Option.getD_some]
      exact json_packed_length value
  have fileLength : ((file.map Value.binary).getD .nil).packed.length =
      (file.map fun file => (binaryHead file.length).length + file.length).getD 1 := by
    cases file with
    | none =>
      rw [Option.map_none, Option.getD_none, Value.packed]
      rfl
    | some bytes =>
      rw [Option.map_some, Option.getD_some, Value.packed, List.length_append]
      rfl
  have names : (Value.string "data").packed.length = 5 ∧ (Value.string "file").packed.length = 5 := by
    simp only [Value.packed]
    decide
  rw [WorkerInput.entry, Value.packed, packedEntries, packedEntries, packedEntries, List.length_append,
    List.length_append, List.length_append, List.length_append, List.length_append, names.1, names.2, dataLength,
    fileLength, WorkerInput.entryBytes]
  have head : (mapHead ([(Value.string "data", (data.map jsonToRmpv).getD .nil),
      (Value.string "file", (file.map Value.binary).getD .nil)] : List (Value × Value)).length).length = 1 := rfl
  rw [head]
  dsimp only
  rw [List.length_nil]
  omega

theorem packed_entries_length (inputs : List WorkerInput) :
    (packedItems (inputs.map WorkerInput.entry)).length = (inputs.map (WorkerInput.entryBytes fun _ => 9)).sum := by
  induction inputs with
  | nil => rfl
  | cons input rest ih =>
    rw [List.map_cons, packedItems, List.length_append, entry_packed_length, ih, List.map_cons, List.sum_cons]

theorem predict_frame_length (id : UInt64) (inputs : List WorkerInput) :
    ((Request.predict inputs).frame id).packed.length = frameBytes (fun _ => 9) id inputs := by
  have names : (Value.string "type").packed.length = 5 ∧ (Value.string "predict").packed.length = 8 ∧
      (Value.string "id").packed.length = 3 ∧ (Value.string "inputs").packed.length = 7 := by
    simp only [Value.packed]
    decide
  change (Value.packed (.map [(.string "type", .string "predict"), (.string "id", .integer (.posInt id)),
    (.string "inputs", .array (inputs.map WorkerInput.entry))])).length = _
  rw [Value.packed, packedEntries, packedEntries, packedEntries, packedEntries]
  simp only [List.length_append, names, List.length_nil]
  have head : (mapHead ([(Value.string "type", Value.string "predict"), (.string "id", .integer (.posInt id)),
    (.string "inputs", .array (inputs.map WorkerInput.entry))] : List (Value × Value)).length).length = 1 := rfl
  rw [head, Value.packed, Value.packed, packInteger, List.length_append, packed_entries_length, List.length_map,
    frameBytes]
  omega

theorem frame_bytes_floats (printer : JsonPrinter) (id : UInt64) (inputs : List WorkerInput) :
    (frameBytes (fun _ => 9) id inputs : Int) =
      frameBytes (fun bits => size (printer.floatText bits)) id inputs + floatGrowth printer inputs := by
  have entries : ((inputs.map (WorkerInput.entryBytes fun _ => 9)).sum : Int) =
      ((inputs.map (WorkerInput.entryBytes fun bits => size (printer.floatText bits))).sum : Nat) +
        floatGrowth printer inputs := by
    induction inputs with
    | nil => rfl
    | cons input rest ih =>
      have first : (input.entryBytes (fun _ => 9) : Int) =
          input.entryBytes (fun bits => size (printer.floatText bits)) +
            (input.floats.map fun bits => 9 - (size (printer.floatText bits) : Int)).sum := by
        obtain ⟨data, file⟩ := input
        rw [WorkerInput.entryBytes, WorkerInput.entryBytes, WorkerInput.floats]
        cases data with
        | none =>
          rw [Option.map_none, Option.map_none, Option.map_none, Option.getD_none, Option.getD_none, List.map_nil,
            List.sum_nil, Int.add_zero]
        | some value =>
          have inside := packed_bytes_floats (fun bits => size (printer.floatText bits)) (fun _ => 9) value
          rw [Option.map_some, Option.map_some, Option.map_some, Option.getD_some, Option.getD_some,
            Option.getD_some]
          push_cast at inside ⊢
          omega
      rw [floatGrowth, List.flatMap_cons, List.map_append, List.sum_append, ← floatGrowth, List.map_cons,
        List.map_cons, List.sum_cons, List.sum_cons]
      push_cast at ih ⊢
      omega
  rw [frameBytes, frameBytes]
  push_cast at entries ⊢
  omega

variable {codec : Codec}

theorem encode_frame_ok (packs : codec.Packs) {value : Value} (plain : value.Plain) :
    (∃ payload, encodeFrame codec value = .ok payload ∧ payload.length ≤ maxFrameBytes) ↔
      value.packed.length ≤ maxFrameBytes := by
  rw [encodeFrame, packs value plain]
  dsimp only
  split
  · rename_i long
    refine iff_of_false ?_ (Nat.not_le.mpr long)
    rintro ⟨payload, isPayload, -⟩
    cases isPayload
  · rename_i fits
    exact iff_of_true ⟨_, rfl, Nat.le_of_not_lt fits⟩ (Nat.le_of_not_lt fits)

theorem frame_fits_iff {printer : JsonPrinter} (packs : codec.Packs) (compact : printer.Compact)
    (id : UInt64) {inputs : List WorkerInput} (short : estimateBatchBytes printer inputs < 2 ^ 32) :
    (∃ payload, encodeFrame codec ((Request.predict inputs).frame id) = .ok payload ∧
      payload.length ≤ maxFrameBytes) ↔ floatGrowth printer inputs ≤ frameRoom printer id inputs := by
  have parts := frame_bytes_floats printer id inputs
  rw [encode_frame_ok packs (frame_plain compact id short), predict_frame_length, frameRoom]
  omega

/-- A float takes nine bytes, and its text at least the three of `0.0`. -/
theorem float_growth_le {printer : JsonPrinter} (texts : ∀ bits, 3 ≤ size (printer.floatText bits))
    (inputs : List WorkerInput) : floatGrowth printer inputs ≤ 6 * (inputs.flatMap WorkerInput.floats).length := by
  unfold floatGrowth
  induction inputs.flatMap WorkerInput.floats with
  | nil => exact Int.le_refl 0
  | cons bits rest ih =>
    have shortest := texts bits
    rw [List.map_cons, List.sum_cons, List.length_cons]
    push_cast at ih ⊢
    omega

theorem few_floats_sent {printer : JsonPrinter} (packs : codec.Packs) (compact : printer.Compact)
    (texts : ∀ bits, 3 ≤ size (printer.floatText bits)) (id : UInt64) {inputs : List WorkerInput}
    (within : estimateBatchBytes printer inputs ≤ Dispatch.frameInputBytesBudget)
    (few : (inputs.flatMap WorkerInput.floats).length ≤ 1200000) :
    ∃ payload, encodeFrame codec ((Request.predict inputs).frame id) = .ok payload ∧
      payload.length ≤ maxFrameBytes := by
  have room := frame_room_ge compact id within
  have growth := float_growth_le texts inputs
  have budget : Dispatch.frameInputBytesBudget = 2139095040 := rfl
  apply (frame_fits_iff packs compact id (by omega)).mpr
  omega

/-- A batch that admission lets through is sent exactly when its floats do not outgrow the
room that the frame has for them, which is most of the margin. -/
theorem admitted_batch_sent_iff {codec : Codec} {printer : JsonPrinter} (packs : codec.Packs)
    (compact : printer.Compact) (id : UInt64) (inputs : List WorkerInput)
    (within : estimateBatchBytes printer inputs ≤ Dispatch.frameInputBytesBudget) :
    7 * 1024 * 1024 ≤ frameRoom printer id inputs ∧
    ((∃ payload, encodeFrame codec ((Request.predict inputs).frame id) = .ok payload ∧
      payload.length ≤ maxFrameBytes) ↔ floatGrowth printer inputs ≤ frameRoom printer id inputs) := by
  refine ⟨frame_room_ge compact id within, frame_fits_iff packs compact id ?_⟩
  have budget : Dispatch.frameInputBytesBudget = 2139095040 := rfl
  omega

/-- The specification as a codec, and a printer of one half. -/
def specCodec : Codec := ⟨fun value => .ok value.packed, fun _ => .error "", fun _ => ""⟩

def halfBits : UInt64 := 0x3fe0000000000000

def halfPrinter : JsonPrinter := ⟨JsonValue.compact fun _ => ['0', '.', '5'], fun _ => ['0', '.', '5']⟩

/-- A data value of as many halves. -/
def halves (count : Nat) : JsonValue := .array (List.replicate count (.number (.float halfBits)))

theorem small_batch_sent :
    estimateBatchBytes halfPrinter [⟨some (halves 2), none⟩, ⟨none, some [1, 2, 3]⟩] ≤
      Dispatch.frameInputBytesBudget ∧
    ∃ payload, encodeFrame specCodec ((Request.predict [⟨some (halves 2), none⟩, ⟨none, some [1, 2, 3]⟩]).frame 0) =
      .ok payload ∧ payload.length ≤ maxFrameBytes := by
  have within : estimateBatchBytes halfPrinter [⟨some (halves 2), none⟩, ⟨none, some [1, 2, 3]⟩] ≤
      Dispatch.frameInputBytesBudget := by decide +kernel
  refine ⟨within, (admitted_batch_sent_iff ?_ ?_ 0 _ within).2.mpr (by decide +kernel)⟩
  · exact fun _ _ => rfl
  · exact fun _ => rfl

theorem halves_size {count : Nat} (some_ : 0 < count) :
    size ((halves count).compact halfPrinter.floatText) = 4 * count + 1 := by
  have inside (count : Nat) : size (compactItems halfPrinter.floatText
      (List.replicate (count + 1) (.number (.float halfBits)))) = 4 * count + 3 := by
    induction count with
    | zero => rfl
    | succ count ih =>
      rw [List.replicate_succ, compactItems, size_append, size_append, ih, comma_size]
      have number : size ((JsonValue.number (.float halfBits)).compact halfPrinter.floatText) = 3 := rfl
      rw [number, List.replicate_succ, List.isEmpty_cons, if_neg Bool.false_ne_true]
      omega
  obtain ⟨fewer, rfl⟩ := Nat.exists_eq_add_of_lt some_
  have close : size [']'] = 1 := rfl
  have start : '['.utf8Size = 1 := rfl
  rw [Nat.zero_add, halves, JsonValue.compact, size_cons, size_append, inside, close, start]
  omega

theorem halves_floats (count : Nat) : (halves count).floats = List.replicate count halfBits := by
  rw [halves, JsonValue.floats]
  induction count with
  | zero => rfl
  | succ count ih =>
    rw [List.replicate_succ, floatsOfItems, ih, JsonValue.floats]
    rfl

/-- Two inputs with as many halves each. -/
def halvesBatch (count : Nat) : List WorkerInput := [⟨some (halves count), none⟩, ⟨some (halves count), none⟩]

theorem halves_batch_figures {count : Nat} (some_ : 0 < count) :
    estimateBatchBytes halfPrinter (halvesBatch count) = 8 * count + 130 ∧
      floatGrowth halfPrinter (halvesBatch count) = 12 * count := by
  constructor
  · have inside : size (halfPrinter.toText (halves count)) = 4 * count + 1 := halves_size some_
    simp only [halvesBatch, estimateBatchBytes, estimateInputBytes, List.map_cons, List.map_nil, List.sum_cons,
      List.sum_nil, Option.map_some, Option.map_none, Option.getD_some, Option.getD_none, inside]
    omega
  · have half : size (halfPrinter.floatText halfBits) = 3 := rfl
    have part : ((List.replicate count halfBits).map fun bits => 9 - (size (halfPrinter.floatText bits) : Int)).sum =
        6 * count := by
      induction count with
      | zero => rfl
      | succ count ih =>
        rcases Nat.eq_zero_or_pos count with rfl | positive
        · rfl
        · rw [List.replicate_succ, List.map_cons, List.sum_cons, ih positive, half]
          omega
    simp only [halvesBatch, floatGrowth, WorkerInput.floats, List.flatMap_cons, List.flatMap_nil, Option.map_some,
      Option.getD_some, halves_floats, List.append_nil, List.map_append, List.sum_append, part]
    omega

/-- Two inputs with 250 million halves each are within the budget and not sent. -/
theorem halves_not_sent :
    ¬∀ (id : UInt64) (inputs : List WorkerInput), 2 ≤ inputs.length →
      estimateBatchBytes halfPrinter inputs ≤ Dispatch.frameInputBytesBudget →
      ∃ payload, encodeFrame specCodec ((Request.predict inputs).frame id) = .ok payload ∧
        payload.length ≤ maxFrameBytes := by
  intro claim
  have budget : Dispatch.frameInputBytesBudget = 2139095040 := rfl
  have limit : maxFrameBytes = 2147483648 := rfl
  have large : ∃ inputs, 2 ≤ inputs.length ∧ estimateBatchBytes halfPrinter inputs = 2000000130 ∧
      floatGrowth halfPrinter inputs = 3000000000 :=
    ⟨halvesBatch 250000000, Nat.le_refl 2, halves_batch_figures (by omega)⟩
  obtain ⟨inputs, two, estimate, growth⟩ := large
  have sent := claim 0 inputs two (by omega)
  rw [@frame_fits_iff specCodec halfPrinter (fun _ _ => rfl) (fun _ => rfl) 0 _ (by omega), growth, frameRoom,
    limit] at sent
  omega

end Panoptikon.Inferio
