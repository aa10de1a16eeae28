import Mathlib.Data.List.AList
import Mathlib.Algebra.BigOperators.Group.List.Basic
import Mathlib.Algebra.GroupWithZero.Nat

/-!
# Finite maps with a weight, and the recency order on them

A finite map is Mathlib's `AList`, whose keys are distinct by construction.
`weight` adds up a cost over all entries; inserting and erasing move it by
exactly the cost of the entry that comes or goes. An LRU cache is the same
list read as a recency order: the head is the most recent entry, and a lookup
through the cache moves its entry to the head.
-/

namespace Foundation

abbrev KeyedMap (Key Value : Type*) := AList fun _ : Key => Value

namespace KeyedMap

variable {Key Value : Type*} [DecidableEq Key]

def weight (cost : Value → Nat) (map : KeyedMap Key Value) : Nat :=
  (map.entries.map fun entry => cost entry.2).sum

variable (cost : Value → Nat)

omit [DecidableEq Key] in
@[simp] theorem weight_empty :
    weight cost (∅ : KeyedMap Key Value) = 0 := rfl

variable {map : KeyedMap Key Value}

theorem weight_erase {key : Key} {value : Value} (stored : map.lookup key = some value) :
    weight cost (map.erase key) + cost value = weight cost map := by
  have present : key ∈ map.entries.keys := by
    rw [← AList.keys, ← AList.mem_keys, ← AList.lookup_isSome, stored]
    rfl
  obtain ⟨found, before, after, fresh, split, erased⟩ := List.exists_of_kerase present
  have sameValue : found = value := by
    have located : map.entries.dlookup key = some found := by
      rw [split, List.dlookup_append, List.dlookup_eq_none.mpr fresh]
      simp
    exact Option.some.inj (located.symm.trans stored)
  have erasedEntries : (map.erase key).entries = before ++ after := erased
  simp only [weight, erasedEntries, split, List.map_append, List.map_cons,
    List.sum_append, List.sum_cons, sameValue]
  omega

theorem erase_of_absent {key : Key} (absent : map.lookup key = none) : map.erase key = map := by
  apply AList.ext
  exact List.kerase_of_notMem_keys (AList.lookup_eq_none.mp absent)

theorem weight_insert (map : KeyedMap Key Value) (key : Key) (value : Value) :
    weight cost (map.insert key value) = cost value + weight cost (map.erase key) := by
  unfold weight
  rw [AList.entries_insert, List.map_cons, List.sum_cons]
  rfl

theorem weight_insert_absent {key : Key} (value : Value) (absent : map.lookup key = none) :
    weight cost (map.insert key value) = weight cost map + cost value := by
  rw [weight_insert, erase_of_absent absent, Nat.add_comm]

theorem weight_insert_stored {key : Key} {old : Value} (value : Value) (stored : map.lookup key = some old) :
    weight cost (map.insert key value) + cost old = weight cost map + cost value := by
  have erased := weight_erase cost stored
  rw [weight_insert]
  omega

theorem lookup_insert_eq (map : KeyedMap Key Value) (key other : Key) (value : Value) :
    (map.insert key value).lookup other =
      if other = key then some value else map.lookup other := by
  split_ifs with same
  · subst same
    exact AList.lookup_insert map
  · exact AList.lookup_insert_ne same

theorem lookup_erase_eq (map : KeyedMap Key Value) (key other : Key) :
    (map.erase key).lookup other = if other = key then none else map.lookup other := by
  split_ifs with same
  · subst same
    exact AList.lookup_erase other map
  · exact AList.lookup_erase_ne same

omit [DecidableEq Key] in
theorem keys_map_values (entries : List (Sigma fun _ : Key => Value)) (change : Value → Value) :
    (entries.map fun entry => (⟨entry.1, change entry.2⟩ : Sigma fun _ : Key => Value)).keys =
      entries.keys := by
  induction entries with
  | nil => rfl
  | cons entry rest ih => exact congrArg (entry.1 :: ·) ih

/-- Every value is changed in its place. -/
def mapValues (map : KeyedMap Key Value) (change : Value → Value) : KeyedMap Key Value :=
  ⟨map.entries.map fun entry => ⟨entry.1, change entry.2⟩, by
    rw [List.NodupKeys, keys_map_values]
    exact map.nodupKeys⟩

theorem lookup_map_values (map : KeyedMap Key Value) (change : Value → Value) (key : Key) :
    (map.mapValues change).lookup key = (map.lookup key).map change := by
  have entries (entries : List (Sigma fun _ : Key => Value)) :
      (entries.map fun entry => (⟨entry.1, change entry.2⟩ : Sigma fun _ : Key => Value)).dlookup key =
        (entries.dlookup key).map change := by
    induction entries with
    | nil => rfl
    | cons entry rest ih =>
      obtain ⟨first, value⟩ := entry
      by_cases same : key = first
      · subst same
        simp
      · rw [List.map_cons, List.dlookup_cons_ne _ _ same, List.dlookup_cons_ne _ _ same, ih]
  exact entries map.entries

end KeyedMap

/-- An LRU cache of unbounded capacity: most recently used entry first. -/
abbrev LruCache (Key Value : Type*) := KeyedMap Key Value

namespace LruCache

variable {Key Value : Type*} [DecidableEq Key]

/-- A lookup that refreshes the recency of the entry it finds. -/
def get (cache : LruCache Key Value) (key : Key) : Option (Value × LruCache Key Value) :=
  (cache.lookup key).map fun value => (value, cache.insert key value)

/-- Takes the least recently used entry out. -/
def removeLru (cache : LruCache Key Value) : Option (Key × Value × LruCache Key Value) :=
  cache.entries.getLast?.map fun entry => (entry.1, entry.2, cache.erase entry.1)

variable {key : Key} {value : Value} {cache after : LruCache Key Value}

theorem get_eq_some (found : cache.get key = some (value, after)) :
    cache.lookup key = some value ∧ after = cache.insert key value := by
  simp only [get, Option.map_eq_some_iff, Prod.mk.injEq] at found
  obtain ⟨stored, located, rfl, rfl⟩ := found
  exact ⟨located, rfl⟩

theorem lookup_get (found : cache.get key = some (value, after)) (other : Key) :
    after.lookup other = cache.lookup other := by
  obtain ⟨located, rfl⟩ := get_eq_some found
  rw [KeyedMap.lookup_insert_eq]
  split_ifs with same
  · rw [same, located]
  · rfl

theorem weight_get (cost : Value → Nat) (found : cache.get key = some (value, after)) :
    KeyedMap.weight cost after = KeyedMap.weight cost cache := by
  obtain ⟨located, rfl⟩ := get_eq_some found
  have moved := KeyedMap.weight_insert_stored cost value located
  omega

theorem remove_lru_eq_some (popped : cache.removeLru = some (key, value, after)) :
    cache.lookup key = some value ∧ after = cache.erase key := by
  simp only [removeLru, Option.map_eq_some_iff, Prod.mk.injEq] at popped
  obtain ⟨⟨lastKey, lastValue⟩, last, rfl, rfl, rfl⟩ := popped
  refine ⟨?_, rfl⟩
  exact AList.mem_lookup_iff.mpr (List.mem_of_getLast? last)

theorem remove_lru_eq_none {cache : LruCache Key Value} (exhausted : cache.removeLru = none) : cache = ∅ := by
  simp only [removeLru, Option.map_eq_none_iff, List.getLast?_eq_none_iff] at exhausted
  exact AList.ext exhausted

theorem remove_lru_length (popped : cache.removeLru = some (key, value, after)) :
    after.entries.length + 1 = cache.entries.length := by
  obtain ⟨located, rfl⟩ := remove_lru_eq_some popped
  have counted := KeyedMap.weight_erase (fun _ => 1) located
  simpa [KeyedMap.weight] using counted

end LruCache

end Foundation
