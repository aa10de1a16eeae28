import Panoptikon.Pql.Builder
import Panoptikon.SearchCache.Contents

/-!
# Pages of a result set

The window a request's page and page size select, as `build_query_with_root`
computes it in i64, and its execution by `execute_results`, which may widen the
LIMIT by a prefetch budget. Both numbers are the client's and nothing bounds
their product: up to `2 ^ 63` a page is its slice of the result set, and pages of
one size tile it; from there on the product leaves the i64.
-/

namespace Panoptikon.SearchCache

open Foundation Foundation.Words

variable {Row : Type}

structure Pagination where
  limit : UInt64
  offset : UInt64
deriving DecidableEq

/-- `(page - 1) * page_size`. A build with overflow checks panics where the
product leaves the i64, the others wrap. -/
def offsetProduct (overflowChecks : Bool) (page pageSize : Int64) : Option Int64 :=
  let product := (page - 1) * pageSize
  if overflowChecks ∧ product.toInt ≠ (page - 1).toInt * pageSize.toInt then none
  else some product

/-- `none` is a panic, `some none` an unpaginated request. -/
def pagination (overflowChecks : Bool) (page pageSize : Int64) : Option (Option Pagination) :=
  if pageSize ≥ 1 then
    (offsetProduct overflowChecks (max page 1) pageSize).map fun offset =>
      some { limit := pageSize.toUInt64, offset := offset.toUInt64 }
  else some none

/-- A bound LIMIT or OFFSET. Past `i64::MAX` the parameter is bound as a float,
and SQLite refuses one that is no 64-bit integer. -/
def boundInteger (value : UInt64) : Option Nat :=
  if value ≤ Int64.maxValue.toUInt64 then some value.toNat else none

/-- The pagination-free query has the result set `rows`. -/
def runCompiledQuery (rows : List Row) : Option (UInt64 × UInt64) → Option (List Row)
  | none => some rows
  | some (limit, offset) => do
      let limit ← boundInteger limit
      let offset ← boundInteger offset
      some (window rows offset (some limit))

structure Execution (Row : Type) where
  page : List Row
  prefetched : Nat
  /-- What is handed to the cache. -/
  stored : Option (Op Row)

def executeResults (rows : List Row) (pagination : Option Pagination) (prefetchRows : UInt32)
    (cacheTarget : Option (QueryKey × EpochSnapshot)) : Option (Execution Row) := do
  let prefetch := if cacheTarget.isSome then prefetchRows.toUInt64 else 0
  let executed := pagination.map fun p => (max p.limit prefetch, p.offset)
  let mapped ← runCompiledQuery rows executed
  let pageLen := pagination.elim mapped.length fun p => min p.limit.toNat mapped.length
  some {
    page := mapped.take pageLen
    prefetched := mapped.length - pageLen
    stored := cacheTarget.map fun target =>
      .insertRows target.1 target.2 (pagination.elim 0 Pagination.offset)
        (executed.map Prod.fst) mapped }

/-- Every execution of the window returns its slice of the result set, and
stores a window of the same result set. -/
def ServesWindow (Row : Type) (p : Pagination) : Prop :=
  ∀ (rows : List Row) (prefetchRows : UInt32) (cacheTarget : Option (QueryKey × EpochSnapshot)),
    ∃ answer, executeResults rows (some p) prefetchRows cacheTarget = some answer ∧
      answer.page = (rows.drop p.offset.toNat).take p.limit.toNat ∧
      ∀ truth : Truth Row, (∀ target ∈ cacheTarget, (truth target.1 target.2).rows = rows) →
        ∀ op ∈ answer.stored, Exact truth op

/-- The window is `[(max(page, 1) - 1) * page_size, max(page, 1) * page_size)`,
reached without a panic, and executions serve it. -/
def Paged (Row : Type) (overflowChecks : Bool) (page pageSize : Int64) : Prop :=
  ∃ p, pagination overflowChecks page pageSize = some (some p) ∧
    (p.offset.toNat : Int) = (max page.toInt 1 - 1) * pageSize.toInt ∧
    (p.offset.toNat + p.limit.toNat : Int) = max page.toInt 1 * pageSize.toInt ∧
    ServesWindow Row p

/-- The window of the page has the position. -/
def PageCovers (overflowChecks : Bool) (page pageSize : Int64) (position : Nat) : Prop :=
  ∃ p, pagination overflowChecks page pageSize = some (some p) ∧
    p.offset.toNat ≤ position ∧ position < p.offset.toNat + p.limit.toNat

theorem one_le_to_int {value : Int64} : 1 ≤ value ↔ 1 ≤ value.toInt := by
  rw [Int64.le_iff_toInt_le]
  rfl

theorem max_one_to_int (page : Int64) : (max page 1).toInt = max page.toInt 1 := by
  have one : (1 : Int64).toInt = 1 := rfl
  have unfolded : max page 1 = if page ≤ 1 then 1 else page := rfl
  rw [unfolded]
  split
  · rename_i small
    rw [Int64.le_iff_toInt_le] at small
    omega
  · rename_i large
    rw [Int64.le_iff_toInt_le] at large
    omega

theorem preceding_to_int (page : Int64) : (max page 1 - 1).toInt = max page.toInt 1 - 1 := by
  have one : (1 : Int64).toInt = 1 := rfl
  have bounded := Int64.toInt_lt page
  rw [Int64.toInt_sub, max_one_to_int, one]
  apply Int.bmod_eq_of_le <;> omega

theorem to_uint64_to_nat (value : Int64) : (value.toUInt64.toNat : Int) = value.toInt % 2 ^ 64 := by
  have bits : value.toUInt64.toNat = value.toBitVec.toNat := rfl
  have signed : value.toInt = value.toBitVec.toInt := rfl
  have small := value.toBitVec.isLt
  rw [bits, signed, BitVec.toInt_eq_toNat_cond]
  split <;> omega

variable {pageSize : Int64}

theorem size_to_uint64 (sized : 1 ≤ pageSize) : (pageSize.toUInt64.toNat : Int) = pageSize.toInt := by
  have positive := one_le_to_int.mp sized
  have bounded := Int64.toInt_lt pageSize
  rw [to_uint64_to_nat]
  omega

theorem bound_integer_eq_some {value : UInt64} (small : value.toNat < 2 ^ 63) :
    boundInteger value = some value.toNat := by
  apply if_pos
  rw [UInt64.le_iff_toNat_le]
  have top : Int64.maxValue.toUInt64.toNat = 2 ^ 63 - 1 := rfl
  omega

theorem bound_integer_eq_none {value : UInt64} (large : 2 ^ 63 ≤ value.toNat) : boundInteger value = none := by
  apply if_neg
  rw [UInt64.le_iff_toNat_le]
  have top : Int64.maxValue.toUInt64.toNat = 2 ^ 63 - 1 := rfl
  omega

/-- The rows before the page, unbounded. -/
def rowsBefore (page pageSize : Int64) : Int := (max page.toInt 1 - 1) * pageSize.toInt

theorem rows_before_nonneg (page : Int64) (sized : 1 ≤ pageSize) : 0 ≤ rowsBefore page pageSize := by
  have positive := one_le_to_int.mp sized
  apply Int.mul_nonneg <;> omega

theorem product_to_int (page pageSize : Int64) :
    ((max page 1 - 1) * pageSize).toInt = (rowsBefore page pageSize).bmod (2 ^ 64) := by
  rw [Int64.toInt_mul, preceding_to_int, rowsBefore]

theorem product_to_uint64 (page pageSize : Int64) :
    (((max page 1 - 1) * pageSize).toUInt64.toNat : Int) = rowsBefore page pageSize % 2 ^ 64 := by
  rw [to_uint64_to_nat, product_to_int]
  exact Int.bmod_emod

theorem product_exact_iff (page : Int64) (sized : 1 ≤ pageSize) :
    ((max page 1 - 1) * pageSize).toInt = (max page 1 - 1).toInt * pageSize.toInt ↔
      rowsBefore page pageSize < 2 ^ 63 := by
  have nonneg := rows_before_nonneg page sized
  rw [preceding_to_int]
  constructor
  · intro exact_
    have bounded := Int64.toInt_lt ((max page 1 - 1) * pageSize)
    rw [exact_] at bounded
    exact bounded
  · intro fits
    rw [product_to_int]
    apply Int.bmod_eq_of_le <;> omega

variable {page pageSize : Int64}

variable (overflowChecks : Bool)

theorem pagination_of_fits (sized : 1 ≤ pageSize)
    (fits : rowsBefore page pageSize < 2 ^ 63) : pagination overflowChecks page pageSize =
      some (some ⟨pageSize.toUInt64, ((max page 1 - 1) * pageSize).toUInt64⟩) := by
  have inRange := (product_exact_iff page sized).mpr fits
  have quiet : ¬(overflowChecks ∧
      ((max page 1 - 1) * pageSize).toInt ≠ (max page 1 - 1).toInt * pageSize.toInt) := by
    rintro ⟨-, differs⟩
    exact differs inRange
  rw [pagination, if_pos sized, offsetProduct]
  rw [if_neg quiet, Option.map_some]

theorem pagination_of_overflow (sized : 1 ≤ pageSize) (beyond : 2 ^ 63 ≤ rowsBefore page pageSize) :
    pagination overflowChecks page pageSize =
      if overflowChecks then none
      else some (some ⟨pageSize.toUInt64, ((max page 1 - 1) * pageSize).toUInt64⟩) := by
  have leaves : ((max page 1 - 1) * pageSize).toInt ≠ (max page 1 - 1).toInt * pageSize.toInt := by
    intro inRange
    have fits := (product_exact_iff page sized).mp inRange
    omega
  rw [pagination, if_pos sized, offsetProduct]
  cases overflowChecks with
  | true => rw [if_pos ⟨rfl, leaves⟩, if_pos rfl, Option.map_none]
  | false =>
    have quiet : ¬((false : Bool) = true ∧
        ((max page 1 - 1) * pageSize).toInt ≠ (max page 1 - 1).toInt * pageSize.toInt) := by
      rintro ⟨checked, -⟩
      exact Bool.false_ne_true checked
    rw [if_neg quiet, Option.map_some, if_neg Bool.false_ne_true]

theorem max_to_nat (left right : UInt64) : (max left right).toNat = max left.toNat right.toNat := by
  have unfolded : max left right = if left ≤ right then right else left := rfl
  rw [unfolded]
  split
  · rename_i wider
    rw [UInt64.le_iff_toNat_le] at wider
    omega
  · rename_i narrower
    rw [UInt64.le_iff_toNat_le] at narrower
    omega

theorem executed_limit_small {limit : UInt64} (small : limit.toNat < 2 ^ 63) (prefetchRows : UInt32)
    (caching : Bool) : (max limit (if caching then prefetchRows.toUInt64 else 0)).toNat < 2 ^ 63 := by
  have budget := UInt32.toNat_lt prefetchRows
  have word : prefetchRows.toUInt64.toNat = prefetchRows.toNat := UInt32.toNat_toUInt64 prefetchRows
  have none_ : (0 : UInt64).toNat = 0 := rfl
  rw [max_to_nat]
  cases caching
  · rw [if_neg Bool.false_ne_true]
    omega
  · rw [if_pos rfl]
    omega

theorem limit_le_executed (limit prefetch : UInt64) : limit.toNat ≤ (max limit prefetch).toNat := by
  rw [max_to_nat]
  exact Nat.le_max_left _ _

theorem take_take_of_le (rows : List Row) {limit executed : Nat} (wider : limit ≤ executed) :
    (rows.take executed).take (min limit (rows.take executed).length) = rows.take limit := by
  have cut : min (min limit (min executed rows.length)) executed = min limit rows.length := by omega
  rw [List.length_take, List.take_take, cut, ← List.take_take, List.take_length]

theorem serves_window_of_small {p : Pagination} (limit : p.limit.toNat < 2 ^ 63)
    (offset : p.offset.toNat < 2 ^ 63) : ServesWindow Row p := by
  intro rows prefetchRows cacheTarget
  have executed := executed_limit_small limit prefetchRows cacheTarget.isSome
  have wider := limit_le_executed p.limit (if cacheTarget.isSome then prefetchRows.toUInt64 else 0)
  have mapped : runCompiledQuery rows (some (max p.limit
      (if cacheTarget.isSome then prefetchRows.toUInt64 else 0), p.offset)) =
      some (window rows p.offset.toNat (some (max p.limit
        (if cacheTarget.isSome then prefetchRows.toUInt64 else 0)).toNat)) := by
    rw [runCompiledQuery, bound_integer_eq_some executed, bound_integer_eq_some offset]
    rfl
  simp only [executeResults, Option.map_some, mapped, Option.elim_some, bind, Option.bind_some,
    Option.some.injEq, exists_eq_left', window]
  constructor
  · exact take_take_of_le (rows.drop p.offset.toNat) wider
  · intro truth agrees op stored
    obtain ⟨target, isTarget, rfl⟩ := Option.mem_map.mp stored
    constructor
    · intro unpaginated
      exact absurd unpaginated (Option.some_ne_none _)
    · rw [agrees target isTarget]
      rfl

theorem not_serves_window_of_large {p : Pagination} (large : 2 ^ 63 ≤ p.offset.toNat) : ¬ServesWindow Row p := by
  intro serves
  obtain ⟨answer, executed, -⟩ := serves [] 0 none
  have refused (limit : UInt64) :
      runCompiledQuery ([] : List Row) (some (limit, p.offset)) = none := by
    rw [runCompiledQuery, bound_integer_eq_none large]
    cases boundInteger limit <;> rfl
  rw [executeResults, Option.map_some, refused] at executed
  exact Option.some_ne_none _ executed.symm

theorem paged_of_fits (sized : 1 ≤ pageSize)
    (fits : rowsBefore page pageSize < 2 ^ 63) : Paged Row overflowChecks page pageSize := by
  have nonneg := rows_before_nonneg page sized
  have size := size_to_uint64 sized
  have bounded := Int64.toInt_lt pageSize
  have offset : (((max page 1 - 1) * pageSize).toUInt64.toNat : Int) = rowsBefore page pageSize := by
    rw [product_to_uint64]
    omega
  refine ⟨_, pagination_of_fits overflowChecks sized fits, offset, ?_, ?_⟩
  · dsimp only
    rw [offset, size, rowsBefore, Int.sub_mul, Int.one_mul, Int.sub_add_cancel]
  · apply serves_window_of_small
    · dsimp only
      omega
    · dsimp only
      omega

theorem paged_iff (page : Int64) (sized : 1 ≤ pageSize) :
    Paged Row overflowChecks page pageSize ↔ rowsBefore page pageSize < 2 ^ 63 := by
  constructor
  · rintro ⟨p, built, offset, -, serves⟩
    by_contra beyond
    push Not at beyond
    rw [pagination_of_overflow overflowChecks sized beyond] at built
    -- A checking build has already panicked.
    split at built
    · exact Option.some_ne_none _ built.symm
    · have before : (p.offset.toNat : Int) = rowsBefore page pageSize := offset
      apply not_serves_window_of_large _ serves
      omega
  · exact paged_of_fits overflowChecks sized

theorem page_covers_iff (sized : 1 ≤ pageSize) (fits : rowsBefore page pageSize < 2 ^ 63) (position : Nat) :
    PageCovers overflowChecks page pageSize position ↔
      max page.toInt 1 - 1 = (position : Int) / pageSize.toInt := by
  have positive := one_le_to_int.mp sized
  have nonneg := rows_before_nonneg page sized
  have size := size_to_uint64 sized
  have offset := product_to_uint64 page pageSize
  have before : rowsBefore page pageSize = (max page.toInt 1 - 1) * pageSize.toInt := rfl
  rw [PageCovers, eq_comm, Int.ediv_eq_iff_of_pos (show (0 : Int) < pageSize.toInt by omega), ← before,
    pagination_of_fits overflowChecks sized fits]
  simp only [Option.some.injEq, exists_eq_left']
  constructor
  · rintro ⟨start, stop⟩
    constructor <;> omega
  · rintro ⟨start, stop⟩
    constructor <;> omega

/-- The page of a position; the last position of an i64 has none at size one. -/
theorem page_of_position (sized : 1 ≤ pageSize) {position : Nat} (small : position < 2 ^ 63 - 1) :
    ∃ page : Int64, 1 ≤ page ∧ page.toInt - 1 = (position : Int) / pageSize.toInt ∧
      rowsBefore page pageSize < 2 ^ 63 := by
  have positive := one_le_to_int.mp sized
  have floor : (position : Int) / pageSize.toInt * pageSize.toInt ≤ position :=
    Int.ediv_mul_le _ (by omega)
  have nonneg : 0 ≤ (position : Int) / pageSize.toInt := Int.ediv_nonneg (by omega) (by omega)
  have below : (position : Int) / pageSize.toInt ≤ position := Int.ediv_le_self _ (by omega)
  have number : (Int64.ofInt ((position : Int) / pageSize.toInt + 1)).toInt =
      (position : Int) / pageSize.toInt + 1 := by
    apply Int64.toInt_ofInt_of_le <;> omega
  refine ⟨Int64.ofInt ((position : Int) / pageSize.toInt + 1), ?_, ?_, ?_⟩
  · rw [one_le_to_int, number]
    omega
  · rw [number, Int.add_sub_cancel]
  · have first : max ((position : Int) / pageSize.toInt + 1) 1 - 1 =
        (position : Int) / pageSize.toInt := by omega
    rw [rowsBefore, number, first]
    omega

/-- A page keeps its promise exactly when the rows before it number less than
`2 ^ 63`, and the pages that do are disjoint and have every position. -/
theorem pages_tile_iff (overflowChecks : Bool) (pageSize : Int64) (sized : 1 ≤ pageSize) :
    (∀ page, Paged Row overflowChecks page pageSize ↔
      (max page.toInt 1 - 1) * pageSize.toInt < 2 ^ 63) ∧
    ∀ position < 2 ^ 63 - 1, ∃! page : Int64, 1 ≤ page ∧
      (max page.toInt 1 - 1) * pageSize.toInt < 2 ^ 63 ∧
      PageCovers overflowChecks page pageSize position := by
  constructor
  · intro page
    exact paged_iff overflowChecks page sized
  · intro position small
    obtain ⟨page, first, number, fits⟩ := page_of_position sized small
    have whole := one_le_to_int.mp first
    apply ExistsUnique.intro page
    · refine ⟨first, fits, (page_covers_iff overflowChecks sized fits position).mpr ?_⟩
      omega
    · rintro other ⟨otherFirst, otherFits, covered⟩
      have otherWhole := one_le_to_int.mp otherFirst
      have same := (page_covers_iff overflowChecks sized otherFits position).mp covered
      apply Int64.toInt_inj.mp
      omega

theorem pages_tile_ten :
    Paged String true 3 10 ∧ ∃! page : Int64, 1 ≤ page ∧
      (max page.toInt 1 - 1) * (10 : Int64).toInt < 2 ^ 63 ∧ PageCovers true page 10 25 := by
  have tiled := @pages_tile_iff String true 10 (by decide)
  constructor
  · exact (tiled.1 3).mpr (by decide)
  · exact tiled.2 25 (by decide)

/-- A product of `2 ^ 64` wraps to the first row: a page far past the end
answers with the first page, and a checking build panics on it. -/
theorem page_wraps :
    (∃ p, pagination false 4294967297 4294967296 = some (some p) ∧
      (executeResults ["first", "second"] (some p) 0 none).map Execution.page =
        some ["first", "second"]) ∧
      pagination true 4294967297 4294967296 = none ∧
      ¬ Paged String false 4294967297 4294967296 := by
  refine ⟨⟨⟨4294967296, 0⟩, by decide, by decide⟩, by decide, ?_⟩
  rw [paged_iff false 4294967297 (by decide)]
  decide

end Panoptikon.SearchCache
