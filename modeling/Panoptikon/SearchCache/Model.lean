import Panoptikon.Foundation.Words
import Panoptikon.Foundation.KeyedMap
import Panoptikon.Foundation.Sorted
import Panoptikon.Foundation.Intervals
import Panoptikon.Foundation.Machine

/-!
# The span-keyed search result cache

A transcription of `api/search_cache.rs` with the epoch counters of
`db/epochs.rs` it validates against. Each public function takes the cache lock
for its whole body, so one function is one atomic step here, and a run is any
list of steps. A result row is a type parameter: the cache only measures rows
(the length of their JSON encoding), slices them and hands them back.

`used_bytes` is a natural number and its saturating subtractions are truncated
ones; the sum it holds is that of memory the process has allocated.
-/

namespace Panoptikon.SearchCache

open Foundation Foundation.Words Foundation.Intervals

/-- `serde_json::to_string(rows).len()`, zero when the encoding fails. -/
class JsonSized (Row : Type) where
  encodedLen : List Row → Nat

/-- A row as its own JSON text: an array encodes as its rows, comma-separated,
in brackets. -/
structure JsonRow where
  text : String
deriving DecidableEq

instance : JsonSized JsonRow where
  encodedLen rows := 2 + (rows.map fun row => row.text.utf8ByteSize).sum + (rows.length - 1)

def spanRows : Nat := 256
def spanOverheadBytes : Nat := 128
def groupOverheadBytes : Nat := 128

structure QueryKey where
  indexDb : String
  userDataDb : Option String
  sql : String
  params : String
deriving DecidableEq

def QueryKey.bytes (key : QueryKey) : Nat :=
  groupOverheadBytes + key.indexDb.utf8ByteSize
    + key.userDataDb.elim 0 String.utf8ByteSize
    + key.sql.utf8ByteSize + key.params.utf8ByteSize

structure SpanKey where
  query : QueryKey
  start : Nat
deriving DecidableEq

inductive SpanValue (Row : Type) where
  | rows (rows : List Row)
  | count (total : Int)

structure Span (Row : Type) where
  value : SpanValue Row
  bytes : Nat

def SpanValue.rowLen {Row : Type} : SpanValue Row → Nat
  | .rows stored => stored.length
  | .count _ => 0

def Span.rowLen {Row : Type} (span : Span Row) : Nat := span.value.rowLen

/-- The live counters: one per index database, one per user data database. -/
structure Epochs where
  index : String → UInt64
  userData : String → UInt64

def bumpEpoch (counters : String → UInt64) (db : String) : String → UInt64 :=
  fun name => if name = db then counters name + 1 else counters name

structure EpochSnapshot where
  index : UInt64
  userData : Option UInt64
deriving DecidableEq

def EpochSnapshot.take (live : Epochs) (indexDb : String) (userDataDb : Option String) :
    EpochSnapshot where
  index := live.index indexDb
  userData := userDataDb.map live.userData

structure GroupIndex where
  starts : SortedSet Nat
  indexEpoch : UInt64
  userDataEpoch : Option UInt64
  knownEnd : Option Nat
  bytes : Nat

def GroupIndex.isCurrent (group : GroupIndex) (live : Epochs) (key : QueryKey) : Bool :=
  group.indexEpoch == live.index key.indexDb
    && group.userDataEpoch == key.userDataDb.map live.userData

inductive EpochOrder where
  | older
  | same
  | newer

inductive CacheLookup (Answer : Type) where
  | hit (answer : Answer)
  | stale
  | miss
deriving DecidableEq

structure CacheState (Row : Type) where
  lru : LruCache SpanKey (Span Row)
  groups : KeyedMap QueryKey GroupIndex
  usedBytes : Nat
  budgetBytes : Nat
  limitBytes : Nat
  hits : Nat
  misses : Nat
  staleHits : Nat
  evictions : Nat

def CacheState.new (Row : Type) : CacheState Row where
  lru := ∅
  groups := ∅
  usedBytes := 0
  budgetBytes := 0
  limitBytes := wordMax
  hits := 0
  misses := 0
  staleHits := 0
  evictions := 0

variable {Row : Type}

namespace CacheState

def detachSpan (state : CacheState Row) (key : SpanKey) : CacheState Row :=
  match state.groups.lookup key.query with
  | none => state
  | some group =>
      let starts := group.starts.remove key.start
      if starts.isEmpty then
        { state with
          groups := state.groups.erase key.query
          usedBytes := state.usedBytes - group.bytes }
      else
        { state with groups := state.groups.insert key.query { group with starts := starts } }

/-- The `while` of `evict_to_budget`; every pass that goes on pops a span, so
one pass more than there are spans always suffices. -/
def evictLoop : Nat → CacheState Row → CacheState Row
  | 0, state => state
  | fuel + 1, state =>
      if state.budgetBytes < state.usedBytes then
        match state.lru.removeLru with
        | some (key, span, lru) =>
            let popped := { state with lru := lru, usedBytes := state.usedBytes - span.bytes }
            let detached := popped.detachSpan key
            evictLoop fuel { detached with evictions := detached.evictions + 1 }
        | none => { state with groups := ∅, usedBytes := 0 }
      else state

def evictToBudget (state : CacheState Row) : CacheState Row :=
  evictLoop (state.lru.entries.length + 1) state

def removeSpan (state : CacheState Row) (key : SpanKey) : CacheState Row :=
  match state.lru.lookup key with
  | some span =>
      { state with lru := state.lru.erase key, usedBytes := state.usedBytes - span.bytes }
  | none => state

def clearGroupSpans (state : CacheState Row) (query : QueryKey) : CacheState Row :=
  match state.groups.lookup query with
  | none => state
  | some group =>
      let emptied := { group with starts := SortedSet.empty, knownEnd := none }
      group.starts.elems.foldl (fun state start => state.removeSpan ⟨query, start⟩)
        { state with groups := state.groups.insert query emptied }

def dropGroup (state : CacheState Row) (query : QueryKey) : CacheState Row :=
  let cleared := state.clearGroupSpans query
  match cleared.groups.lookup query with
  | none => cleared
  | some group =>
      { cleared with
        groups := cleared.groups.erase query
        usedBytes := cleared.usedBytes - group.bytes }

def epochOrder (snapshot : EpochSnapshot) (group : GroupIndex) : EpochOrder :=
  let index := compare snapshot.index group.indexEpoch
  let userData := match snapshot.userData, group.userDataEpoch with
    | some left, some right => compare left right
    | none, none => .eq
    | _, _ => .lt
  match index, userData with
  | .eq, .eq => .same
  | left, right => if left ≠ .lt ∧ right ≠ .lt then .newer else .older

/-- Returns the state and whether the insert may go on. -/
def reconcileEpochs (state : CacheState Row) (query : QueryKey) (snapshot : EpochSnapshot) :
    CacheState Row × Bool :=
  match state.groups.lookup query with
  | some group =>
      match epochOrder snapshot group with
      | .older => (state, false)
      | .same => (state, true)
      | .newer =>
          let cleared := state.clearGroupSpans query
          match cleared.groups.lookup query with
          | some group =>
              let stamped := { group with
                indexEpoch := snapshot.index
                userDataEpoch := snapshot.userData }
              ({ cleared with groups := cleared.groups.insert query stamped }, true)
          | none => (cleared, true)
  | none =>
      let created : GroupIndex :=
        { starts := SortedSet.empty
          indexEpoch := snapshot.index
          userDataEpoch := snapshot.userData
          knownEnd := none
          bytes := query.bytes }
      ({ state with
          groups := state.groups.insert query created
          usedBytes := state.usedBytes + query.bytes }, true)

variable [JsonSized Row]

def valueBytes : SpanValue Row → Nat
  | .rows rows => JsonSized.encodedLen rows
  | .count _ => 8

def storeSpan (state : CacheState Row) (key : SpanKey) (value : SpanValue Row) :
    CacheState Row :=
  let bytes := spanOverheadBytes + valueBytes value
  let groups := match state.groups.lookup key.query with
    | some group =>
        state.groups.insert key.query { group with starts := group.starts.insert key.start }
    | none => state.groups
  let released := match state.lru.lookup key with
    | some previous => state.usedBytes - previous.bytes
    | none => state.usedBytes
  { state with
    lru := state.lru.insert key { value := value, bytes := bytes }
    groups := groups
    usedBytes := released + bytes }

end CacheState

open CacheState

def setBudgetMb (state : CacheState Row) (sizeMb : UInt64) : CacheState Row :=
  let budget := min (saturatingMul sizeMb.toNat (1024 * 1024)) state.limitBytes
  let resized := { state with budgetBytes := budget }
  if budget = 0 then { resized with lru := ∅, groups := ∅, usedBytes := 0 }
  else resized.evictToBudget

def setBudgetLimitMb (state : CacheState Row) (limitMb : UInt64) : CacheState Row :=
  let limit := saturatingMul limitMb.toNat (1024 * 1024)
  let limited := { state with limitBytes := limit }
  if limit < state.budgetBytes then { limited with budgetBytes := limit }.evictToBudget
  else limited

/-- Cut `[from, to)` at every multiple of `spanRows`. Each turn of the loop
moves `start` forward, so `to - from` turns are enough. -/
def gridSplitLoop : Nat → Nat → Nat → List Interval
  | 0, _, _ => []
  | fuel + 1, start, stop =>
      if start < stop then
        let gridNext := saturatingMul (start / spanRows + 1) spanRows
        let cut := min stop gridNext
        (start, cut) :: gridSplitLoop fuel cut stop
      else []

def pushGridSplit (first stop : Nat) : List Interval := gridSplitLoop (stop - first) first stop

/-- What `lookup_rows` has gathered so far. -/
structure Gathered (Row : Type) where
  lru : LruCache SpanKey (Span Row)
  rows : List Row
  covered : Nat

def gatherSpans (query : QueryKey) (wantEnd : Nat) :
    List Nat → Gathered Row → Gathered Row
  | [], gathered => gathered
  | start :: rest, gathered =>
      if gathered.covered < start then gathered
      else
        match gathered.lru.get ⟨query, start⟩ with
        | none => gathered
        | some (span, lru) =>
            match span.value with
            | .count _ => { gathered with lru := lru }
            | .rows rows =>
                let stop := start + rows.length
                if stop ≤ gathered.covered then
                  gatherSpans query wantEnd rest { gathered with lru := lru }
                else
                  let first := gathered.covered - start
                  let last := min stop wantEnd - start
                  let extended : Gathered Row :=
                    { lru := lru
                      rows := gathered.rows ++ (rows.drop first).take (last - first)
                      covered := min stop wantEnd }
                  if wantEnd ≤ extended.covered then extended
                  else gatherSpans query wantEnd rest extended

/-- Where the window ends, as far as the group knows: past the end of the
result set it is satisfied by coverage reaching `known_end`. -/
def wantEnd (offset : Nat) (limit knownEnd : Option Nat) : Option Nat :=
  match limit, knownEnd with
  | some limit, some last => some (min (saturatingAdd offset limit) last)
  | some limit, none => some (saturatingAdd offset limit)
  | none, some last => some last
  | none, none => none

def lookupRows (live : Epochs) (state : CacheState Row) (query : QueryKey)
    (offset : UInt64) (limit : Option UInt64) : CacheState Row × CacheLookup (List Row) :=
  let offset := offset.toNat
  let missed := ({ state with misses := state.misses + 1 }, CacheLookup.miss)
  if state.budgetBytes = 0 then (state, .miss)
  else
    match state.groups.lookup query with
    | none => missed
    | some group =>
        if !group.isCurrent live query then
          ({ state with staleHits := state.staleHits + 1 }, .stale)
        else
          match wantEnd offset (limit.map UInt64.toNat) group.knownEnd with
          | none => missed
          | some wanted =>
              if wanted ≤ offset then ({ state with hits := state.hits + 1 }, .hit [])
              else
                match group.starts.lastLe offset with
                | none => missed
                | some first =>
                    let gathered := gatherSpans query wanted (group.starts.range first wanted)
                      { lru := state.lru, rows := [], covered := offset }
                    if wanted ≤ gathered.covered then
                      ({ state with lru := gathered.lru, hits := state.hits + 1 },
                        .hit gathered.rows)
                    else
                      ({ state with lru := gathered.lru, misses := state.misses + 1 }, .miss)

/-- Existing spans overlapping `[from, to)`, in ascending order. -/
def occupiedRanges (state : CacheState Row) (query : QueryKey) (first stop : Nat) :
    List Interval :=
  match state.groups.lookup query with
  | none => []
  | some group =>
      let begin := (group.starts.lastLe first).getD first
      (group.starts.range begin stop).filterMap fun start =>
        match state.lru.lookup ⟨query, start⟩ with
        | none => none
        | some span =>
            if first < start + span.rowLen then some (start, start + span.rowLen) else none

section Insert

variable [JsonSized Row]

/-- An execution that came up short of its LIMIT, or had none, knows the end. -/
def recordKnownEnd (state : CacheState Row) (query : QueryKey) (offset returned : Nat)
    (executedLimit : Option Nat) : CacheState Row :=
  if executedLimit.all (returned < ·) then
    match state.groups.lookup query with
    | some group =>
        { state with
          groups := state.groups.insert query
            { group with knownEnd := some (saturatingAdd offset returned) } }
    | none => state
  else state

def storePieces (state : CacheState Row) (query : QueryKey) (offset : Nat) (rows : List Row)
    (pieces : List Interval) : CacheState Row :=
  pieces.foldl
    (fun state piece => state.storeSpan ⟨query, piece.1⟩
      (.rows ((rows.drop (piece.1 - offset)).take (piece.2 - piece.1))))
    state

/-- A group must own at least one span: an execution that returned nothing is
anchored by a zero-row span. -/
def anchorGroup (state : CacheState Row) (query : QueryKey) (offset : Nat) : CacheState Row :=
  if (state.groups.lookup query).any fun group => group.starts.isEmpty then
    state.storeSpan ⟨query, offset⟩ (.rows [])
  else state

/-- Everything `insert_rows` does between reconciling the epochs and evicting. -/
def fillGroup (state : CacheState Row) (query : QueryKey) (offset : Nat)
    (executedLimit : Option Nat) (rows : List Row) : CacheState Row :=
  let stop := saturatingAdd offset rows.length
  let noted := recordKnownEnd state query offset rows.length executedLimit
  let pieces := trim pushGridSplit stop offset (occupiedRanges noted query offset stop)
  anchorGroup (storePieces noted query offset rows pieces) query offset

def insertRows (state : CacheState Row) (query : QueryKey) (snapshot : EpochSnapshot)
    (offset : UInt64) (executedLimit : Option UInt64) (rows : List Row) : CacheState Row :=
  if state.budgetBytes = 0 then state
  else
    match state.reconcileEpochs query snapshot with
    | (reconciled, false) => reconciled
    | (reconciled, true) =>
        (fillGroup reconciled query offset.toNat (executedLimit.map UInt64.toNat)
          rows).evictToBudget

def insertCount (state : CacheState Row) (query : QueryKey) (snapshot : EpochSnapshot)
    (total : Int) : CacheState Row :=
  if state.budgetBytes = 0 then state
  else
    match state.reconcileEpochs query snapshot with
    | (reconciled, false) => reconciled
    | (reconciled, true) =>
        (reconciled.storeSpan ⟨query, 0⟩ (.count total)).evictToBudget

end Insert

def lookupCount (live : Epochs) (state : CacheState Row) (query : QueryKey) :
    CacheState Row × CacheLookup Int :=
  if state.budgetBytes = 0 then (state, .miss)
  else
    match state.groups.lookup query with
    | none => ({ state with misses := state.misses + 1 }, .miss)
    | some group =>
        if !group.isCurrent live query then
          ({ state with staleHits := state.staleHits + 1 }, .stale)
        else
          match state.lru.get ⟨query, 0⟩ with
          | none => ({ state with misses := state.misses + 1 }, .miss)
          | some (span, lru) =>
              match span.value with
              | .count total => ({ state with lru := lru, hits := state.hits + 1 }, .hit total)
              | .rows _ => ({ state with lru := lru, misses := state.misses + 1 }, .miss)

def clearMatches (indexDb userDataDb : Option String) (query : QueryKey) : Bool :=
  indexDb.all (query.indexDb == ·) && userDataDb.all (query.userDataDb == some ·)

def clear (state : CacheState Row) (indexDb userDataDb : Option String) : CacheState Row :=
  if indexDb.isNone && userDataDb.isNone then
    { state with lru := ∅, groups := ∅, usedBytes := 0 }
  else
    (state.groups.keys.filter (clearMatches indexDb userDataDb)).foldl dropGroup state

/-- The operations of the cache and the epoch bumps of the writers around it.
An insert carries the snapshot its execution took before it ran, whenever that
was, so executions may overlap and finish in any order. -/
inductive Op (Row : Type) where
  | insertRows (query : QueryKey) (snapshot : EpochSnapshot) (offset : UInt64)
      (executedLimit : Option UInt64) (rows : List Row)
  | insertCount (query : QueryKey) (snapshot : EpochSnapshot) (total : Int)
  | lookupRows (query : QueryKey) (offset : UInt64) (limit : Option UInt64)
  | lookupCount (query : QueryKey)
  | setBudgetMb (sizeMb : UInt64)
  | setBudgetLimitMb (limitMb : UInt64)
  | clear (indexDb userDataDb : Option String)
  | bumpIndexEpoch (db : String)
  | bumpUserDataEpoch (db : String)

structure World (Row : Type) where
  cache : CacheState Row
  live : Epochs

variable [JsonSized Row]

def step (world : World Row) : Op Row → World Row
  | .insertRows query snapshot offset executedLimit rows =>
      { world with cache := insertRows world.cache query snapshot offset executedLimit rows }
  | .insertCount query snapshot total =>
      { world with cache := insertCount world.cache query snapshot total }
  | .lookupRows query offset limit =>
      { world with cache := (lookupRows world.live world.cache query offset limit).1 }
  | .lookupCount query => { world with cache := (lookupCount world.live world.cache query).1 }
  | .setBudgetMb sizeMb => { world with cache := setBudgetMb world.cache sizeMb }
  | .setBudgetLimitMb limitMb => { world with cache := setBudgetLimitMb world.cache limitMb }
  | .clear indexDb userDataDb => { world with cache := clear world.cache indexDb userDataDb }
  | .bumpIndexEpoch db =>
      { world with live := { world.live with index := bumpEpoch world.live.index db } }
  | .bumpUserDataEpoch db =>
      { world with live := { world.live with userData := bumpEpoch world.live.userData db } }

/-- The process at startup: an empty, disabled cache and counters at zero. -/
def machine (Row : Type) [JsonSized Row] : Machine (World Row) (Op Row) where
  init := { cache := CacheState.new Row, live := { index := fun _ => 0, userData := fun _ => 0 } }
  step := step

end Panoptikon.SearchCache
