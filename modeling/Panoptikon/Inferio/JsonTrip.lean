import Panoptikon.Inferio.Wire
import Mathlib.Data.List.Nodup

/-!
# JSON over the wire

A JSON value that is made a msgpack value is read back as it was. A number is tried as
`i64`, `u64` and `f64` in turn on both sides, and keeps its kind.
-/

namespace Panoptikon.Inferio

open Foundation

/-- A negative integer is below zero, and a float is finite. -/
def JsonNumber.Proper : JsonNumber → Prop
  | .posInt _ => True
  | .negInt value => value < 0
  | .float bits => BinaryFormat.double.exponentField bits.toNat ≠ BinaryFormat.double.topField

mutual

/-- The keys of an object are distinct. -/
def JsonValue.Proper : JsonValue → Prop
  | .null => True
  | .bool _ => True
  | .number value => value.Proper
  | .string _ => True
  | .array items => ItemsProper items
  | .object entries => (entries.map Prod.fst).Nodup ∧ EntriesProper entries

def ItemsProper : List JsonValue → Prop
  | [] => True
  | item :: rest => item.Proper ∧ ItemsProper rest

def EntriesProper : List (String × JsonValue) → Prop
  | [] => True
  | (_, value) :: rest => value.Proper ∧ EntriesProper rest

end

namespace JsonNumber

def asI64 : JsonNumber → Option Int64
  | .posInt value => if value.toNat < 2 ^ 63 then some value.toInt64 else none
  | .negInt value => some value
  | .float _ => none

def asU64 : JsonNumber → Option UInt64
  | .posInt value => some value
  | _ => none

def asF64 : JsonNumber → UInt64
  | .posInt value => .ofNat (BinaryFormat.double.round false value.toNat 0)
  | .negInt value => .ofNat (BinaryFormat.double.round true value.toInt.natAbs 0)
  | .float bits => bits

def isFloat : JsonNumber → Bool
  | .float _ => true
  | _ => false

end JsonNumber

/-- `Value::from` of an `i64` -/
def Value.ofI64 (value : Int64) : Value :=
  .integer (if value < 0 then .negInt value else .posInt value.toUInt64)

/-- `i64` before `u64`, and `f64` for the rest. -/
def triedNumber (number : JsonNumber) : Value :=
  match number.asI64 with
  | some signed => .ofI64 signed
  | none =>
      match number.asU64 with
      | some unsigned => .integer (.posInt unsigned)
      | none => .f64 number.asF64

theorem small_not_negative {value : UInt64} (small : value.toNat < 2 ^ 63) : ¬value.toInt64 < 0 := by
  have same : value.toInt64.toInt = value.toNat := by
    change value.toBitVec.toInt = _
    rw [BitVec.toInt_eq_toNat_of_lt]
    · rfl
    · change 2 * value.toNat < 2 ^ 64
      omega
  rw [Int64.lt_iff_toInt_lt, same, Int64.toInt_zero]
  omega

theorem tried_number {number : JsonNumber} (proper : number.Proper) : triedNumber number = numberToRmpv number := by
  cases number with
  | posInt value =>
    rw [triedNumber, JsonNumber.asI64, numberToRmpv]
    by_cases small : value.toNat < 2 ^ 63
    · rw [if_pos small]
      dsimp only
      rw [Value.ofI64, if_neg (small_not_negative small), UInt64.toUInt64_toInt64]
    · rw [if_neg small]
      rfl
  | negInt value =>
    have negative : value < 0 := proper
    rw [triedNumber, JsonNumber.asI64, numberToRmpv]
    dsimp only
    rw [Value.ofI64, if_pos negative]
  | float bits => rfl

theorem number_survives (codec : Codec) {number : JsonNumber} (proper : number.Proper) :
    rmpvToJson codec (numberToRmpv number) = .ok (.number number) := by
  cases number with
  | posInt value =>
    rw [numberToRmpv, rmpvToJson, integerToJson, Integer.asI64]
    by_cases small : value.toNat < 2 ^ 63
    · rw [if_pos small]
      dsimp only
      rw [JsonNumber.fromI64, if_neg (small_not_negative small), UInt64.toUInt64_toInt64]
    · rw [if_neg small]
      rfl
  | negInt value =>
    have negative : value < 0 := proper
    rw [numberToRmpv, rmpvToJson, integerToJson, Integer.asI64]
    dsimp only
    rw [JsonNumber.fromI64, if_pos negative]
  | float bits =>
    rw [numberToRmpv, rmpvToJson, numberToJson, JsonNumber.fromF64, if_neg proper]

theorem number_kind (number : JsonNumber) :
    (number.isFloat = true ∧ ∃ bits, jsonToRmpv (.number number) = .f64 bits) ∨
      (number.isFloat = false ∧ ∃ integer, jsonToRmpv (.number number) = .integer integer) := by
  rw [jsonToRmpv]
  cases number with
  | posInt value => exact .inr ⟨rfl, .posInt value, rfl⟩
  | negInt value => exact .inr ⟨rfl, .negInt value, rfl⟩
  | float bits => exact .inl ⟨rfl, bits, rfl⟩

theorem insert_new {key : String} {value : JsonValue} {entries : List (String × JsonValue)}
    (absent : key ∉ entries.map Prod.fst) : objectInsert key value entries = entries ++ [(key, value)] := by
  induction entries with
  | nil => rfl
  | cons entry rest ih =>
    rw [List.map_cons, List.mem_cons, not_or] at absent
    rw [objectInsert, if_neg (Ne.symm absent.1), ih absent.2, List.cons_append]

theorem keys_behind {entry : String × JsonValue} {before rest : List (String × JsonValue)}
    (distinct : ((before ++ entry :: rest).map Prod.fst).Nodup) : entry.1 ∉ before.map Prod.fst := by
  rw [List.map_append, List.nodup_append] at distinct
  intro isIn
  exact distinct.2.2 entry.1 isIn entry.1 (List.mem_map_of_mem List.mem_cons_self) rfl

mutual

theorem value_survives (codec : Codec) : ∀ value : JsonValue, value.Proper →
    rmpvToJson codec (jsonToRmpv value) = .ok value
  | .null, _ => by rw [jsonToRmpv, rmpvToJson]
  | .bool _, _ => by rw [jsonToRmpv, rmpvToJson]
  | .number _, proper => by
      rw [jsonToRmpv]
      rw [JsonValue.Proper] at proper
      exact number_survives codec proper
  | .string _, _ => by rw [jsonToRmpv, rmpvToJson]
  | .array items, proper => by
      rw [JsonValue.Proper] at proper
      rw [jsonToRmpv, rmpvToJson, items_survive codec items proper]
      rfl
  | .object entries, proper => by
      rw [JsonValue.Proper] at proper
      rw [jsonToRmpv, rmpvToJson, entries_survive codec entries [] proper.2 proper.1]
      rfl

theorem items_survive (codec : Codec) : ∀ items : List JsonValue, ItemsProper items →
    itemsToJson codec (itemsToRmpv items) = .ok items
  | [], _ => by rw [itemsToRmpv, itemsToJson]
  | item :: rest, proper => by
      rw [ItemsProper] at proper
      rw [itemsToRmpv, itemsToJson, value_survives codec item proper.1, items_survive codec rest proper.2]
      rfl

theorem entries_survive (codec : Codec) : ∀ entries before : List (String × JsonValue), EntriesProper entries →
    ((before ++ entries).map Prod.fst).Nodup →
      entriesToJson codec (entriesToRmpv entries) before = .ok (before ++ entries)
  | [], before, _, _ => by rw [entriesToRmpv, entriesToJson, List.append_nil]
  | (key, value) :: rest, before, proper, distinct => by
      rw [EntriesProper] at proper
      have text : codec.keyText (.string key) = key := rfl
      have split : before ++ (key, value) :: rest = (before ++ [(key, value)]) ++ rest := by
        rw [List.append_assoc, List.singleton_append]
      rw [entriesToRmpv, entriesToJson, value_survives codec value proper.1]
      change entriesToJson codec (entriesToRmpv rest) (objectInsert (codec.keyText (.string key)) value before) = _
      rw [text, insert_new (keys_behind distinct), split]
      rw [split] at distinct
      exact entries_survive codec rest (before ++ [(key, value)]) proper.2 distinct

end

/-- JSON survives the wire, and its numbers keep their kind there. -/
theorem json_survives (codec : Codec) (value : JsonValue) (proper : value.Proper) :
    rmpvToJson codec (jsonToRmpv value) = .ok value ∧
      ∀ number : JsonNumber, number.Proper → triedNumber number = jsonToRmpv (.number number) ∧
        ((number.isFloat = true ∧ ∃ bits, jsonToRmpv (.number number) = .f64 bits) ∨
          (number.isFloat = false ∧ ∃ integer, jsonToRmpv (.number number) = .integer integer)) := by
  refine ⟨value_survives codec value proper, ?_⟩
  intro number isProper
  refine ⟨?_, number_kind number⟩
  rw [tried_number isProper, jsonToRmpv]

/-- A codec that is never asked. -/
def idleCodec : Codec := ⟨fun _ => .error "", fun _ => .error "", fun _ => ""⟩

/-- `{"limit": 2^63, "scores": [-1, 1.0]}` -/
def scores : JsonValue :=
  .object [("limit", .number (.posInt 0x8000000000000000)),
    ("scores", .array [.number (.negInt (-1)), .number (.float 0x3FF0000000000000)])]

theorem scores_survive : rmpvToJson idleCodec (jsonToRmpv scores) = .ok scores := by
  have proper : scores.Proper := by
    rw [scores, JsonValue.Proper]
    refine ⟨by decide, ?_⟩
    rw [EntriesProper, EntriesProper, EntriesProper, JsonValue.Proper, JsonValue.Proper, ItemsProper, ItemsProper,
      ItemsProper, JsonValue.Proper, JsonValue.Proper]
    have negative : JsonNumber.Proper (.negInt (-1)) := by
      change (-1 : Int64) < 0
      decide
    have finite : JsonNumber.Proper (.float 0x3FF0000000000000) := by
      change BinaryFormat.double.exponentField _ ≠ BinaryFormat.double.topField
      decide
    exact ⟨trivial, ⟨negative, finite, trivial⟩, trivial⟩
  exact (json_survives idleCodec scores proper).1

end Panoptikon.Inferio
