import Mathlib.Data.List.Nodup
import Mathlib.Data.Int.Order.Basic

/-!
# Rows that refer to each other

Tables are lists of rows with an integer key. A new row takes a key that no
row has, which may be one that a deleted row had. Rows of one table refer to
rows of another by key: a reference survives as long as the row it names does.
-/

namespace Foundation

/-- How an engine numbers a new row, from the keys in use. -/
structure RowIds where
  next : List Int → Int
  unused : ∀ keys, next keys ∉ keys

namespace RowIds

theorem le_foldl_max (keys : List Int) (least : Int) :
    least ≤ keys.foldl max least ∧ ∀ key ∈ keys, key ≤ keys.foldl max least := by
  induction keys generalizing least with
  | nil => exact ⟨le_rfl, nofun⟩
  | cons first rest induction =>
    have tail := induction (max least first)
    refine ⟨le_trans (le_max_left _ _) tail.1, fun key member => ?_⟩
    rcases List.mem_cons.mp member with same | later
    · rw [same]
      exact le_trans (le_max_right _ _) tail.1
    · exact tail.2 key later

/-- One more than the largest key, so that the key of the last row is used again
when that row is deleted. -/
def largest : RowIds where
  next := fun keys => keys.foldl max 0 + 1
  unused := by
    intro keys member
    have bounded := (le_foldl_max keys 0).2 _ member
    omega

end RowIds

section References

variable {Child Parent : Type*} {ref : Child → Int} {key : Parent → Int}

/-- Every reference is the key of a row. -/
def Refers (ref : Child → Int) (key : Parent → Int) (children : List Child) (parents : List Parent) : Prop :=
  ∀ child ∈ children, ref child ∈ parents.map key

theorem Refers.nil (parents : List Parent) : Refers ref key [] parents :=
  nofun

variable {children more : List Child} {parents others : List Parent}

theorem Refers.of_subset (refers : Refers ref key children parents) (fewer : more ⊆ children) :
    Refers ref key more parents :=
  fun child member => refers child (fewer member)

theorem Refers.of_keys (refers : Refers ref key children parents)
    (keys : others.map key = parents.map key) : Refers ref key children others := by
  intro child member
  rw [keys]
  exact refers child member

theorem Refers.of_refs (refers : Refers ref key children parents)
    (refs : more.map ref = children.map ref) : Refers ref key more parents := by
  intro child member
  have held : ref child ∈ children.map ref := by
    rw [← refs]
    exact List.mem_map_of_mem member
  obtain ⟨old, isOld, same⟩ := List.mem_map.mp held
  rw [← same]
  exact refers old isOld

theorem Refers.append (refers : Refers ref key children parents) (added : Refers ref key more parents) :
    Refers ref key (children ++ more) parents := by
  intro child member
  rcases List.mem_append.mp member with old | new
  · exact refers child old
  · exact added child new

theorem Refers.singleton {child : Child} (names : ref child ∈ parents.map key) :
    Refers ref key [child] parents := by
  intro other member
  rw [List.mem_singleton.mp member]
  exact names

theorem Refers.append_parents (refers : Refers ref key children parents) (others : List Parent) :
    Refers ref key children (parents ++ others) := by
  intro child member
  rw [List.map_append]
  exact List.mem_append_left _ (refers child member)

theorem Refers.filter_parents (refers : Refers ref key children parents) {keep : Parent → Bool}
    (left : ∀ child ∈ children, ∀ parent ∈ parents, key parent = ref child → keep parent = true) :
    Refers ref key children (parents.filter keep) := by
  intro child member
  obtain ⟨parent, isParent, names⟩ := List.mem_map.mp (refers child member)
  rw [← names]
  exact List.mem_map_of_mem (List.mem_filter.mpr ⟨isParent, left child member parent isParent names⟩)

end References

section Keys

variable {Row : Type*} {key : Row → Int} {rows : List Row}

theorem keys_append_fresh (ids : RowIds) (distinct : (rows.map key).Nodup) {row : Row}
    (isNew : key row = ids.next (rows.map key)) : ((rows ++ [row]).map key).Nodup := by
  rw [List.map_append, List.nodup_append]
  refine ⟨distinct, List.nodup_singleton _, ?_⟩
  intro other isOld found isFresh same
  rw [List.map_singleton, List.mem_singleton] at isFresh
  rw [same, isFresh, isNew] at isOld
  exact ids.unused _ isOld

theorem keys_filter (distinct : (rows.map key).Nodup) (keep : Row → Bool) : ((rows.filter keep).map key).Nodup :=
  distinct.sublist (List.filter_sublist.map key)

/-- The rows that meet a condition, changed. -/
def updateWhere (chosen : Row → Bool) (change : Row → Row) (rows : List Row) : List Row :=
  rows.map fun row => if chosen row then change row else row

variable {chosen : Row → Bool} {change : Row → Row}

theorem keys_update {Key : Type*} {key : Row → Key} (same : ∀ row, key (change row) = key row) :
    (updateWhere chosen change rows).map key = rows.map key := by
  rw [updateWhere, List.map_map]
  apply List.map_congr_left
  intro row _
  rw [Function.comp_apply]
  split
  · exact same row
  · rfl

theorem mem_update {found : Row} : found ∈ updateWhere chosen change rows ↔
    ∃ row ∈ rows, found = if chosen row then change row else row := by
  rw [updateWhere, List.mem_map]
  constructor
  · intro ⟨row, member, same⟩
    exact ⟨row, member, same.symm⟩
  · intro ⟨row, member, same⟩
    exact ⟨row, member, same.symm⟩

theorem eq_of_key (distinct : (rows.map key).Nodup) {left right : Row} (isLeft : left ∈ rows)
    (isRight : right ∈ rows) (same : key left = key right) : left = right :=
  List.inj_on_of_nodup_map distinct isLeft isRight same

end Keys

section Lookup

variable {Row Key : Type*} [DecidableEq Key] {key : Row → Key} {rows : List Row} {wanted : Key}

def rowWith (key : Row → Key) (wanted : Key) (rows : List Row) : Option Row :=
  rows.find? fun row => key row = wanted

theorem mem_of_row_with {row : Row} (found : rowWith key wanted rows = some row) :
    row ∈ rows ∧ key row = wanted := by
  rw [rowWith] at found
  have holds := List.find?_some found
  exact ⟨List.mem_of_find?_eq_some found, of_decide_eq_true holds⟩

theorem row_with_eq_none : rowWith key wanted rows = none ↔ wanted ∉ rows.map key := by
  rw [rowWith, List.find?_eq_none, List.mem_map]
  constructor
  · intro absent ⟨row, member, same⟩
    exact absent row member (decide_eq_true same)
  · intro absent row member same
    exact absent ⟨row, member, of_decide_eq_true same⟩

theorem row_with_eq_some (distinct : (rows.map key).Nodup) {row : Row} :
    rowWith key wanted rows = some row ↔ row ∈ rows ∧ key row = wanted := by
  constructor
  · exact mem_of_row_with
  · intro ⟨member, same⟩
    cases found : rowWith key wanted rows with
    | none =>
      have held : key row ∈ rows.map key := List.mem_map_of_mem member
      rw [same] at held
      exact absurd held (row_with_eq_none.mp found)
    | some other =>
      have isOther := mem_of_row_with found
      exact congrArg some (List.inj_on_of_nodup_map distinct isOther.1 member (isOther.2.trans same.symm))

theorem row_with_append (added : Row) : rowWith key wanted (rows ++ [added]) =
    (rowWith key wanted rows).or (if key added = wanted then some added else none) := by
  rw [rowWith, List.find?_append, List.find?_singleton]
  by_cases same : key added = wanted
  · rw [if_pos same, if_pos (decide_eq_true same)]
    rfl
  · rw [if_neg same, if_neg (by rw [decide_eq_false same]; exact Bool.false_ne_true)]
    rfl

theorem row_with_update {chosen : Row → Bool} {change : Row → Row} (same : ∀ row, key (change row) = key row) :
    rowWith key wanted (updateWhere chosen change rows) =
      (rowWith key wanted rows).map fun row => if chosen row then change row else row := by
  rw [rowWith, updateWhere, List.find?_map]
  congr 2
  funext row
  rw [Function.comp_apply]
  split
  · rw [same row]
  · rfl

theorem row_with_filter (distinct : (rows.map key).Nodup) (keep : Row → Bool) :
    rowWith key wanted (rows.filter keep) = (rowWith key wanted rows).filter keep := by
  have fewer : ((rows.filter keep).map key).Nodup := distinct.sublist (List.filter_sublist.map key)
  apply Option.ext
  intro row
  rw [row_with_eq_some fewer, List.mem_filter, Option.filter_eq_some_iff, row_with_eq_some distinct]
  constructor
  · intro ⟨⟨member, kept⟩, same⟩
    exact ⟨⟨member, same⟩, kept⟩
  · intro ⟨⟨member, same⟩, kept⟩
    exact ⟨⟨member, kept⟩, same⟩

theorem row_with_perm (distinct : (rows.map key).Nodup) {others : List Row} (same : others.Perm rows) :
    rowWith key wanted others = rowWith key wanted rows := by
  have alike : (others.map key).Nodup := (same.map key).nodup_iff.mpr distinct
  apply Option.ext
  intro row
  rw [row_with_eq_some alike, row_with_eq_some distinct, same.mem_iff]

end Lookup

end Foundation
