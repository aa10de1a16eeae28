import Mathlib.Data.List.Induction
import Mathlib.Data.List.Sort

/-!
# Keyset pages

A page holds the rows after a cursor, lowest key first, up to a limit. A row after
the cursor that is not on the page comes after every row of a full page.
-/

namespace Foundation

variable {Row : Type} (key : Row → Int)

/-- The rows after the cursor in the order of their keys. -/
def rowsAfter (cursor : Int) (rows : List Row) : List Row :=
  (rows.filter fun row => cursor < key row).insertionSort fun first second => key first ≤ key second

def page (limit : Nat) (cursor : Int) (rows : List Row) : List Row := (rowsAfter key cursor rows).take limit

/-- The key of the last row, or the cursor where there is none. -/
def lastKey (cursor : Int) (rows : List Row) : Int := (rows.getLast?.map key).getD cursor

variable {key} {limit : Nat} {cursor : Int} {rows : List Row}

theorem mem_rows_after {row : Row} : row ∈ rowsAfter key cursor rows ↔ row ∈ rows ∧ cursor < key row := by
  rw [rowsAfter, List.mem_insertionSort, List.mem_filter, decide_eq_true_iff]

theorem page_mem {row : Row} (member : row ∈ page key limit cursor rows) : row ∈ rows ∧ cursor < key row :=
  mem_rows_after.mp (List.mem_of_mem_take member)

theorem rows_after_sorted : (rowsAfter key cursor rows).Pairwise fun first second => key first ≤ key second := by
  have total : Std.Total fun first second : Row => key first ≤ key second :=
    ⟨fun first second => Int.le_total _ _⟩
  have transitive : IsTrans Row fun first second => key first ≤ key second :=
    ⟨fun _ _ _ => Int.le_trans⟩
  exact List.pairwise_insertionSort _ _

theorem page_leaves_out {row : Row} (isRow : row ∈ rows) (after : cursor < key row)
    (missing : row ∉ page key limit cursor rows) : (page key limit cursor rows).length = limit ∧
      ∀ other ∈ page key limit cursor rows, key other ≤ key row := by
  have split := List.take_append_drop limit (rowsAfter key cursor rows)
  have later : row ∈ (rowsAfter key cursor rows).drop limit := by
    have member := mem_rows_after.mpr ⟨isRow, after⟩
    rw [← split, List.mem_append] at member
    exact member.resolve_left missing
  have sorted := @rows_after_sorted Row key cursor rows
  rw [← split, List.pairwise_append] at sorted
  refine ⟨?_, fun other member => sorted.2.2 other member row later⟩
  have rest := List.length_pos_of_mem later
  rw [List.length_drop] at rest
  rw [page, List.length_take]
  omega

theorem last_key_mem {rows : List Row} (cursor : Int) (nonempty : rows ≠ []) :
    ∃ row ∈ rows, lastKey key cursor rows = key row := by
  refine ⟨rows.getLast nonempty, List.getLast_mem nonempty, ?_⟩
  rw [lastKey, List.getLast?_eq_some_getLast nonempty]
  rfl

theorem page_advances (nonempty : page key limit cursor rows ≠ []) :
    cursor < lastKey key cursor (page key limit cursor rows) := by
  obtain ⟨row, member, isLast⟩ := @last_key_mem Row key _ cursor nonempty
  rw [isLast]
  exact (page_mem member).2

end Foundation
