import Mathlib.Data.List.Sort

/-!
# Sorted lists

An ordered set is a strictly ascending list. The operations are the ones an
ordered set of keys offers: insert, remove, the elements of a half-open range
in ascending order, and the greatest element not exceeding a bound. A stable sort
by a key brings the elements of one key together, and elements that were in order
stay as they were.
-/

namespace Foundation

structure SortedSet (Elem : Type*) [LinearOrder Elem] where
  elems : List Elem
  ascending : elems.Pairwise (· < ·)

namespace SortedSet

variable {Elem : Type*} [LinearOrder Elem]

instance : Membership Elem (SortedSet Elem) := ⟨fun set elem => elem ∈ set.elems⟩

variable {set : SortedSet Elem}

theorem mem_def {elem : Elem} : elem ∈ set ↔ elem ∈ set.elems :=
  Iff.rfl

def empty : SortedSet Elem := ⟨[], List.Pairwise.nil⟩

def isEmpty (set : SortedSet Elem) : Bool := set.elems.isEmpty

def insert (set : SortedSet Elem) (elem : Elem) : SortedSet Elem where
  elems := set.elems.filter (· < elem) ++ elem :: set.elems.filter (elem < ·)
  ascending := by
    refine List.pairwise_append.mpr
      ⟨set.ascending.filter _, List.pairwise_cons.mpr ⟨?_, set.ascending.filter _⟩, ?_⟩
    · intro later member
      simpa using (List.mem_filter.mp member).2
    · intro low lowMember high highMember
      have below : low < elem := by simpa using (List.mem_filter.mp lowMember).2
      rcases List.mem_cons.mp highMember with rfl | above
      · exact below
      · exact below.trans (by simpa using (List.mem_filter.mp above).2)

def remove (set : SortedSet Elem) (elem : Elem) : SortedSet Elem where
  elems := set.elems.filter (· ≠ elem)
  ascending := set.ascending.filter _

/-- The elements of `[low, high)`, in ascending order. -/
def range (set : SortedSet Elem) (low high : Elem) : List Elem :=
  set.elems.filter fun elem => low ≤ elem ∧ elem < high

/-- The greatest element not exceeding `bound`. -/
def lastLe (set : SortedSet Elem) (bound : Elem) : Option Elem :=
  (set.elems.filter (· ≤ bound)).getLast?

@[simp] theorem not_mem_empty (elem : Elem) : elem ∉ (empty : SortedSet Elem) := by
  simp [mem_def, empty]

@[simp] theorem mem_insert {elem other : Elem} :
    other ∈ set.insert elem ↔ other = elem ∨ other ∈ set := by
  simp only [mem_def, insert, List.mem_append, List.mem_filter, List.mem_cons,
    decide_eq_true_eq]
  constructor
  · tauto
  · rintro (rfl | member)
    · simp
    · rcases lt_trichotomy other elem with below | same | above
      · exact Or.inl ⟨member, below⟩
      · exact Or.inr (Or.inl same)
      · exact Or.inr (Or.inr ⟨member, above⟩)

@[simp] theorem mem_remove {elem other : Elem} :
    other ∈ set.remove elem ↔ other ≠ elem ∧ other ∈ set := by
  simp [mem_def, remove, and_comm]

@[simp] theorem mem_range {low high elem : Elem} :
    elem ∈ set.range low high ↔ elem ∈ set ∧ low ≤ elem ∧ elem < high := by
  simp [mem_def, range]

theorem range_ascending (set : SortedSet Elem) (low high : Elem) : (set.range low high).Pairwise (· < ·) :=
  set.ascending.filter _

theorem is_empty_iff : set.isEmpty = true ↔ ∀ elem, elem ∉ set := by
  simp [isEmpty, mem_def, List.eq_nil_iff_forall_not_mem]

theorem last_le_eq_some {bound last : Elem} (found : set.lastLe bound = some last) :
    last ∈ set ∧ last ≤ bound ∧ ∀ elem ∈ set, elem ≤ bound → elem ≤ last := by
  have member := List.mem_filter.mp (List.mem_of_getLast? found)
  refine ⟨member.1, by simpa using member.2, ?_⟩
  intro elem elemMember below
  have kept : elem ∈ set.elems.filter (· ≤ bound) :=
    List.mem_filter.mpr ⟨elemMember, by simpa using below⟩
  have shape : (set.elems.filter (· ≤ bound)).dropLast ++ [last] =
      set.elems.filter (· ≤ bound) := List.dropLast_append_getLast? last found
  have ordered := set.ascending.filter (· ≤ bound)
  rw [← shape] at kept ordered
  rcases List.mem_append.mp kept with earlier | same
  · exact ((List.pairwise_append.mp ordered).2.2 elem earlier last (by simp)).le
  · exact (List.mem_singleton.mp same).le

theorem last_le_eq_none {bound : Elem}
    (absent : set.lastLe bound = none) {elem : Elem} (member : elem ∈ set) : bound < elem := by
  have noneBelow : set.elems.filter (· ≤ bound) = [] :=
    List.getLast?_eq_none_iff.mp absent
  have kept := List.filter_eq_nil_iff.mp noneBelow elem member
  simpa using kept

end SortedSet

end Foundation

namespace Foundation.KeyedSort

variable {Elem Key : Type} [LinearOrder Key] (key : Elem → Key)

def KeyLe (first second : Elem) : Prop := key first ≤ key second

instance : DecidableRel (KeyLe key) := fun first second => inferInstanceAs (Decidable (key first ≤ key second))

instance : IsTrans Elem (KeyLe key) := ⟨fun _ _ _ => le_trans⟩

instance : Std.Total (KeyLe key) := ⟨fun first second => le_total (key first) (key second)⟩

/-- Whichever way a stable sort goes about it, this is its result. -/
def sortByKey (elems : List Elem) : List Elem := elems.insertionSort (KeyLe key)

theorem sort_perm (elems : List Elem) : (sortByKey key elems).Perm elems := List.perm_insertionSort (KeyLe key) elems

theorem sort_ordered (elems : List Elem) :
    (sortByKey key elems).Pairwise fun first second => key first ≤ key second :=
  List.pairwise_insertionSort (KeyLe key) elems

variable {elems : List Elem}

theorem filter_sort (keep : Elem → Bool)
    (ordered : (elems.filter keep).Pairwise fun first second => key first ≤ key second) :
    (sortByKey key elems).filter keep = elems.filter keep := by
  have inside : (elems.filter keep).Sublist (sortByKey key elems) :=
    List.sublist_insertionSort ordered List.filter_sublist
  have kept := inside.filter keep
  rw [List.filter_eq_self.mpr fun elem member => (List.mem_filter.mp member).2] at kept
  exact (kept.eq_of_length ((sort_perm key elems).filter keep).length_eq.symm).symm

/-- What lies between two elements of the property has it too. -/
def Together (Property : Elem → Prop) (elems : List Elem) : Prop :=
  ∀ before first between last after, elems = before ++ first :: (between ++ last :: after) →
    Property first → Property last → ∀ elem ∈ between, Property elem

theorem Together.map {Image : Type} {read : Elem → Image} {Property : Image → Prop}
    (together : Together (fun elem => Property (read elem)) elems) : Together Property (elems.map read) := by
  intro before first between last after split isFirst isLast image member
  obtain ⟨front, fromFirst, whole, -, isFromFirst⟩ := List.map_eq_append_iff.mp split
  obtain ⟨one, afterFirst, sameFirst, rfl, isAfterFirst⟩ := List.map_eq_cons_iff.mp isFromFirst
  obtain ⟨middle, fromLast, sameAfter, rfl, isFromLast⟩ := List.map_eq_append_iff.mp isAfterFirst
  obtain ⟨other, rest, sameLast, rfl, -⟩ := List.map_eq_cons_iff.mp isFromLast
  obtain ⟨elem, isElem, rfl⟩ := List.mem_map.mp member
  rw [sameFirst, sameAfter, sameLast] at whole
  exact together front one middle other rest whole isFirst isLast elem isElem

theorem together_sort {Property : Elem → Prop}
    (keyed : ∀ first ∈ elems, ∀ second ∈ elems, Property first → (Property second ↔ key second = key first)) :
    Together Property (sortByKey key elems) := by
  intro before first between last after split isFirst isLast elem member
  have ordered := sort_ordered key elems
  have inside {other : Elem} (isOther : other ∈ first :: (between ++ last :: after)) : other ∈ elems := by
    rw [← (sort_perm key elems).mem_iff, split]
    exact List.mem_append_right _ isOther
  have isMember : elem ∈ first :: (between ++ last :: after) :=
    List.mem_cons_of_mem _ (List.mem_append_left _ member)
  have lastMember : last ∈ first :: (between ++ last :: after) :=
    List.mem_cons_of_mem _ (List.mem_append_right _ List.mem_cons_self)
  rw [split, List.pairwise_append, List.pairwise_cons, List.pairwise_append] at ordered
  have above := ordered.2.1.1 elem (List.mem_append_left _ member)
  have below := ordered.2.1.2.2.2 elem member last List.mem_cons_self
  have same := (keyed first (inside List.mem_cons_self) last (inside lastMember) isFirst).mp isLast
  rw [same] at below
  exact (keyed first (inside List.mem_cons_self) elem (inside isMember) isFirst).mpr (le_antisymm below above)

end Foundation.KeyedSort
