import Panoptikon.Foundation.KeyedMap
import Mathlib.Data.Finset.Basic

/-!
# Cache state

`CacheState` of `inferio/manager.rs`: which cache keys reference which models,
in what order of use, until when, and which models are pinned. The methods
return the models whose last reference disappeared.
-/

namespace Panoptikon.Inferio

open Foundation

def u32Limit : Nat := 2 ^ 32

/-- Instants count nanoseconds. -/
inductive Expiration where
  | never
  | atInstant (instant : Int)

/-- `latest` is the last instant a date can be; beyond it, as beyond the longest
duration in milliseconds, an entry never expires. -/
def Expiration.new (latest ttlSeconds now : Int) : Expiration :=
  if ttlSeconds < 0 then .never
  else if ttlSeconds * 1000 < 2 ^ 63 ∧ now + ttlSeconds * 10 ^ 9 ≤ latest then
    .atInstant (now + ttlSeconds * 10 ^ 9)
  else .never

abbrev References := KeyedMap String (Finset String)

/-- A linked hash map with its back first: the most recent model leads. -/
abbrev Lru := LruCache String Expiration

structure RemoveOutcome where
  wasPresent : Bool
  unload : Option String

structure CacheState where
  lruCaches : KeyedMap String Lru
  cacheRefs : References
  pins : KeyedMap String Nat

/-- An order in which a hash map is walked. -/
structure WalkOrder (Entry : Type) where
  walk : List Entry → List Entry
  perm : ∀ entries, (walk entries).Perm entries

/-- What `resize`, `remove` and `clear` do with a reference they drop. -/
def dropReference (cacheKey inferenceId : String) (cacheRefs : References) :
    References × Option String :=
  match cacheRefs.lookup inferenceId with
  | none => (cacheRefs, none)
  | some refs =>
      let refs := refs.erase cacheKey
      if refs = ∅ then (cacheRefs.erase inferenceId, some inferenceId)
      else (cacheRefs.insert inferenceId refs, none)

/-- The loop of `resize`. A turn takes one entry out, so the length bounds the
turns. -/
def evict (cacheKey : String) (lruSize : Int) : Nat → Lru → References →
    Lru × References × List String
  | 0, lru, cacheRefs => (lru, cacheRefs, [])
  | turns + 1, lru, cacheRefs =>
      if (lru.entries.length : Int) > lruSize then
        match lru.removeLru with
        | none => (lru, cacheRefs, [])
        | some (evicted, _, lru) =>
            let (cacheRefs, unload) := dropReference cacheKey evicted cacheRefs
            let (lru, cacheRefs, unloads) := evict cacheKey lruSize turns lru cacheRefs
            (lru, cacheRefs, unload.toList ++ unloads)
      else (lru, cacheRefs, [])

/-- The loop of `clear`. -/
def dropReferences (cacheKey : String) : List String → References → References × List String
  | [], cacheRefs => (cacheRefs, [])
  | inferenceId :: rest, cacheRefs =>
      let (cacheRefs, unload) := dropReference cacheKey inferenceId cacheRefs
      let (cacheRefs, unloads) := dropReferences cacheKey rest cacheRefs
      (cacheRefs, unload.toList ++ unloads)

namespace CacheState

def default : CacheState := ⟨∅, ∅, ∅⟩

def resize (state : CacheState) (cacheKey : String) (lruSize : Int) : CacheState × List String :=
  match state.lruCaches.lookup cacheKey with
  | none => (state, [])
  | some lru =>
      let (lru, cacheRefs, unloads) :=
        evict cacheKey lruSize lru.entries.length lru state.cacheRefs
      ({ state with lruCaches := state.lruCaches.insert cacheKey lru, cacheRefs }, unloads)

def touchLoad (latest : Int) (state : CacheState) (inferenceId cacheKey : String)
    (lruSize ttlSeconds now : Int) : CacheState × List String :=
  let refs := (state.cacheRefs.lookup inferenceId).getD ∅
  let lru := (state.lruCaches.lookup cacheKey).getD ∅
  resize
    { state with
      cacheRefs := state.cacheRefs.insert inferenceId (insert cacheKey refs)
      lruCaches := state.lruCaches.insert cacheKey
        (lru.insert inferenceId (Expiration.new latest ttlSeconds now)) }
    cacheKey lruSize

def remove (state : CacheState) (cacheKey inferenceId : String) : CacheState × RemoveOutcome :=
  match state.lruCaches.lookup cacheKey with
  | none => (state, ⟨false, none⟩)
  | some lru =>
      if (lru.lookup inferenceId).isSome then
        let (cacheRefs, unload) := dropReference cacheKey inferenceId state.cacheRefs
        ({ state with
            lruCaches := state.lruCaches.insert cacheKey (lru.erase inferenceId)
            cacheRefs },
          ⟨true, unload⟩)
      else (state, ⟨false, none⟩)

/-- The number of entries, and the models to unload. -/
def clear (state : CacheState) (cacheKey : String) : CacheState × Nat × List String :=
  match state.lruCaches.lookup cacheKey with
  | none => (state, 0, [])
  | some lru =>
      let (cacheRefs, unloads) := dropReferences cacheKey lru.entries.keys.reverse state.cacheRefs
      ({ state with lruCaches := state.lruCaches.erase cacheKey, cacheRefs },
        lru.entries.length, unloads)

def pinCount (state : CacheState) (inferenceId : String) : Nat :=
  (state.pins.lookup inferenceId).getD 0

/-- The entries past their time, but for the pinned models. -/
def expired (state : CacheState) (order : WalkOrder (Σ _ : String, Lru)) (now : Int) :
    List (String × String) :=
  (order.walk state.lruCaches.entries).flatMap fun cache =>
    cache.2.entries.reverse.filterMap fun entry =>
      if state.pinCount entry.1 > 0 then none
      else
        match entry.2 with
        | .never => none
        | .atInstant instant => if now > instant then some (cache.1, entry.1) else none

def removeAll : List (String × String) → CacheState → CacheState × List String
  | [], state => (state, [])
  | (cacheKey, inferenceId) :: rest, state =>
      let (state, outcome) := state.remove cacheKey inferenceId
      let (state, unloads) := removeAll rest state
      (state, outcome.unload.toList ++ unloads)

def expire (state : CacheState) (order : WalkOrder (Σ _ : String, Lru)) (now : Int) :
    CacheState × List String :=
  removeAll (state.expired order now) state

/-- The count is a word, and wraps. -/
def pin (state : CacheState) (inferenceId : String) : CacheState :=
  { state with pins := state.pins.insert inferenceId ((state.pinCount inferenceId + 1) % u32Limit) }

def unpin (state : CacheState) (inferenceId : String) : CacheState :=
  match state.pins.lookup inferenceId with
  | none => state
  | some count =>
      if count - 1 = 0 then { state with pins := state.pins.erase inferenceId }
      else { state with pins := state.pins.insert inferenceId (count - 1) }

def unpinRestore (latest : Int) (state : CacheState) (inferenceId cacheKey : String)
    (ttlSeconds now : Int) : CacheState :=
  let state := state.unpin inferenceId
  match state.lruCaches.lookup cacheKey with
  | none => state
  | some lru =>
      { state with
        lruCaches := state.lruCaches.insert cacheKey
          (lru.replace inferenceId (Expiration.new latest ttlSeconds now)) }

def removeEverywhere (state : CacheState) (inferenceId : String) : CacheState where
  lruCaches := ⟨state.lruCaches.entries.map fun cache => ⟨cache.1, cache.2.erase inferenceId⟩, by
    have keys := state.lruCaches.nodupKeys
    rwa [List.NodupKeys, List.keys, List.map_map]⟩
  cacheRefs := state.cacheRefs.erase inferenceId
  pins := state.pins

def refsNonEmpty (state : CacheState) (inferenceId : String) : Bool :=
  match state.cacheRefs.lookup inferenceId with
  | none => false
  | some refs => refs ≠ ∅

end CacheState

inductive CacheOp where
  | touchLoad (inferenceId cacheKey : String) (lruSize ttlSeconds now : Int)
  | resize (cacheKey : String) (lruSize : Int)
  | remove (cacheKey inferenceId : String)
  | clear (cacheKey : String)
  | expire (order : WalkOrder (Σ _ : String, Lru)) (now : Int)
  | pin (inferenceId : String)
  | unpin (inferenceId : String)
  | unpinRestore (inferenceId cacheKey : String) (ttlSeconds now : Int)
  | removeEverywhere (inferenceId : String)

/-- The state after an operation, and the models it reports for unloading. -/
def CacheOp.apply (latest : Int) (state : CacheState) : CacheOp → CacheState × List String
  | .touchLoad inferenceId cacheKey lruSize ttlSeconds now =>
      state.touchLoad latest inferenceId cacheKey lruSize ttlSeconds now
  | .resize cacheKey lruSize => state.resize cacheKey lruSize
  | .remove cacheKey inferenceId =>
      let (state, outcome) := state.remove cacheKey inferenceId
      (state, outcome.unload.toList)
  | .clear cacheKey =>
      let (state, _, unloads) := state.clear cacheKey
      (state, unloads)
  | .expire order now => state.expire order now
  | .pin inferenceId => (state.pin inferenceId, [])
  | .unpin inferenceId => (state.unpin inferenceId, [])
  | .unpinRestore inferenceId cacheKey ttlSeconds now =>
      (state.unpinRestore latest inferenceId cacheKey ttlSeconds now, [])
  | .removeEverywhere inferenceId => (state.removeEverywhere inferenceId, [])

end Panoptikon.Inferio
