import Panoptikon.Inferio.CacheRuns

/-!
# The model manager

`ManagerState` of `inferio/manager.rs`, and what its requests do to it. A load
gives the state lock up for one thing, the spawn of the workers, and keeps the
load lock meanwhile; a request whose future is dropped there is a step of its
own. The guards are those of the predicts that have not ended.
-/

namespace Panoptikon.Inferio

open Foundation

/-- `PinGuard` of a predict, with the cache key and the time to live it restores. -/
structure PinGuard where
  inferenceId : String
  cacheKey : String
  ttlSeconds : Int

/-- The load whose workers are being spawned; it holds a guard without a restore. -/
structure Spawning where
  inferenceId : String
  cacheKey : String
  ttlSeconds : Int
  pinForPredict : Bool

inductive LoadOutcome where
  | shuttingDown
  /-- Its own resize has evicted the model. -/
  | refused
  | loaded
  | spawns
deriving DecidableEq

structure ManagerState where
  cache : CacheState
  /-- The registered models, with the generation of their dispatcher. -/
  models : KeyedMap String Nat
  nextGeneration : Nat
  shuttingDown : Bool
  spawning : Option Spawning
  guards : List PinGuard

namespace ManagerState

variable (latest : Int) (state : ManagerState)

def beginUnload (inferenceId : String) : ManagerState :=
  { state with models := state.models.erase inferenceId }

def beginUnloads : List String → ManagerState → ManagerState
  | [], state => state
  | inferenceId :: rest, state => beginUnloads rest (state.beginUnload inferenceId)

/-- The predict that is handed its sender holds a guard. -/
def handOut (guard : PinGuard) : ManagerState :=
  { state with cache := state.cache.pin guard.inferenceId, guards := state.guards ++ [guard] }

/-- `ensure_loaded` up to the spawn of the workers -/
def ensureLoaded (inferenceId cacheKey : String) (lruSize ttlSeconds : Int) (pinForPredict : Bool)
    (now : Int) : ManagerState × LoadOutcome :=
  if state.shuttingDown then (state, .shuttingDown)
  else
    let touch := state.cache.touchLoad latest inferenceId cacheKey lruSize ttlSeconds now
    let touched := beginUnloads touch.2 { state with cache := touch.1 }
    if !touched.cache.refsNonEmpty inferenceId then (touched, .refused)
    else if (touched.models.lookup inferenceId).isSome then
      if pinForPredict then (touched.handOut ⟨inferenceId, cacheKey, ttlSeconds⟩, .loaded)
      else (touched, .loaded)
    else
      ({ touched with
          cache := touched.cache.pin inferenceId
          spawning := some ⟨inferenceId, cacheKey, ttlSeconds, pinForPredict⟩ }, .spawns)

def unloadModel (cacheKey inferenceId : String) : ManagerState :=
  let removed := state.cache.remove cacheKey inferenceId
  beginUnloads removed.2.unload.toList { state with cache := removed.1 }

/-- `ensure_loaded` behind the spawn of the workers -/
def finishLoad (spawning : Spawning) (spawned : Bool) : ManagerState :=
  let released := { state with cache := state.cache.unpin spawning.inferenceId, spawning := none }
  if !spawned then released.unloadModel spawning.cacheKey spawning.inferenceId
  else if released.shuttingDown || !released.cache.refsNonEmpty spawning.inferenceId then released
  else
    let registered := { released with
      models := released.models.insert spawning.inferenceId released.nextGeneration
      nextGeneration := released.nextGeneration + 1 }
    if spawning.pinForPredict then
      registered.handOut ⟨spawning.inferenceId, spawning.cacheKey, spawning.ttlSeconds⟩
    else registered

/-- The guard of a spawn is dropped with the future of the request. -/
def dropLoad (spawning : Spawning) : ManagerState :=
  { state with cache := state.cache.unpin spawning.inferenceId, spawning := none }

/-- `PinGuard::drop` -/
def dropGuard (index : Nat) (now : Int) : ManagerState :=
  match state.guards[index]? with
  | none => state
  | some guard =>
      { state with
        cache := state.cache.unpinRestore latest guard.inferenceId guard.cacheKey guard.ttlSeconds now
        guards := state.guards.eraseIdx index }

def clearCache (cacheKey : String) : ManagerState :=
  let cleared := state.cache.clear cacheKey
  beginUnloads cleared.2.2 { state with cache := cleared.1 }

def sweep (order : WalkOrder (Σ _ : String, Lru)) (now : Int) : ManagerState :=
  if state.shuttingDown then state
  else
    let expired := state.cache.expire order now
    beginUnloads expired.2 { state with cache := expired.1 }

def handleWorkerDeath (inferenceId : String) (generation : Nat) : ManagerState :=
  if state.models.lookup inferenceId = some generation then
    { state with
      models := state.models.erase inferenceId
      cache := state.cache.removeEverywhere inferenceId }
  else state

def shutdown : ManagerState :=
  { state with shuttingDown := true, models := ∅, cache := CacheState.default }

end ManagerState

inductive ManagerEvent where
  | load (inferenceId cacheKey : String) (lruSize ttlSeconds : Int) (pinForPredict : Bool) (now : Int)
  /-- The workers were spawned, or could not be. -/
  | spawned (success : Bool)
  /-- The request is dropped while its workers are being spawned. -/
  | dropLoad
  /-- A predict ends, or is dropped. -/
  | dropGuard (index : Nat) (now : Int)
  | unload (cacheKey inferenceId : String)
  | clear (cacheKey : String)
  | sweep (order : WalkOrder (Σ _ : String, Lru)) (now : Int)
  | death (inferenceId : String) (generation : Nat)
  | shutdown

/-- A load waits for the load lock. -/
def ManagerState.handle (latest : Int) (state : ManagerState) : ManagerEvent → ManagerState
  | .load inferenceId cacheKey lruSize ttlSeconds pinForPredict now =>
      match state.spawning with
      | none => (state.ensureLoaded latest inferenceId cacheKey lruSize ttlSeconds pinForPredict now).1
      | some _ => state
  | .spawned success =>
      match state.spawning with
      | none => state
      | some spawning => state.finishLoad spawning success
  | .dropLoad =>
      match state.spawning with
      | none => state
      | some spawning => state.dropLoad spawning
  | .dropGuard index now => state.dropGuard latest index now
  | .unload cacheKey inferenceId => state.unloadModel cacheKey inferenceId
  | .clear cacheKey => state.clearCache cacheKey
  | .sweep order now => state.sweep order now
  | .death inferenceId generation => state.handleWorkerDeath inferenceId generation
  | .shutdown => state.shutdown

def managerMachine (latest : Int) : Machine ManagerState ManagerEvent where
  init := ⟨CacheState.default, ∅, 0, false, none, []⟩
  step := fun state event => state.handle latest event

end Panoptikon.Inferio
