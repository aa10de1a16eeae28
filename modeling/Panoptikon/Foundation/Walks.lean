import Mathlib.Data.Set.Finite.List
import Mathlib.SetTheory.Cardinal.Finite

/-!
# Walks in a finite graph

A graph whose edges carry labels, at most one of each label at a node, and the
walks it allows from a node. A walk longer than the graph has nodes comes back
to a node, even after a given number of steps, and its loop can be repeated; the
walks of bounded length are finitely many.
-/

namespace Foundation.Walks

variable {Node Label : Type} (step : Node → Label → Option Node)

def follow (node : Node) (walk : List Label) : Option Node := walk.foldlM step node

@[simp] theorem follow_nil (node : Node) : follow step node [] = some node := rfl

theorem follow_append (node : Node) (first second : List Label) :
    follow step node (first ++ second) = (follow step node first).bind fun middle => follow step middle second :=
  List.foldlM_append

theorem follow_cons (node : Node) (label : Label) (rest : List Label) :
    follow step node (label :: rest) = (step node label).bind fun next => follow step next rest :=
  List.foldlM_cons

theorem follow_of_append {node last : Node} {first second : List Label}
    (walks : follow step node (first ++ second) = some last) :
    ∃ middle, follow step node first = some middle ∧ follow step middle second = some last := by
  rw [follow_append] at walks
  exact Option.bind_eq_some_iff.mp walks

/-- `loop` repeated. -/
def repeated (loop : List Label) : Nat → List Label
  | 0 => []
  | times + 1 => loop ++ repeated loop times

theorem length_repeated (loop : List Label) (times : Nat) : (repeated loop times).length = times * loop.length := by
  induction times with
  | zero => rw [repeated, List.length_nil, Nat.zero_mul]
  | succ times ih => rw [repeated, List.length_append, ih, Nat.succ_mul, Nat.add_comm]

theorem mem_repeated {loop : List Label} {times : Nat} {label : Label} (member : label ∈ repeated loop times) :
    label ∈ loop := by
  induction times with
  | zero => cases member
  | succ times ih =>
    rcases List.mem_append.mp member with here | later
    · exact here
    · exact ih later

theorem follow_repeated {node : Node} {loop : List Label} (loops : follow step node loop = some node) (times : Nat) :
    follow step node (repeated loop times) = some node := by
  induction times with
  | zero => rfl
  | succ times ih => rw [repeated, follow_append, loops, Option.bind_some, ih]

theorem exists_loop [Finite Node] {start last : Node} {walk : List Label}
    (walks : follow step start walk = some last) (lead : Nat) (long : lead + Nat.card Node ≤ walk.length) :
    ∃ before loop after node, walk = before ++ loop ++ after ∧ loop ≠ [] ∧ lead ≤ before.length ∧
      follow step start before = some node ∧ follow step node loop = some node := by
  have reaches (position : Fin (Nat.card Node + 1)) :
      ∃ node, follow step start (walk.take (lead + position)) = some node := by
    have whole : follow step start (walk.take (lead + position) ++ walk.drop (lead + position)) = some last := by
      rw [List.take_append_drop]
      exact walks
    obtain ⟨middle, isMiddle, -⟩ := follow_of_append step whole
    exact ⟨middle, isMiddle⟩
  choose visited isVisited using reaches
  have crowded : ¬Function.Injective visited := by
    intro injective
    have card := Nat.card_le_card_of_injective visited injective
    rw [Nat.card_eq_fintype_card, Fintype.card_fin] at card
    omega
  obtain ⟨first, second, ordered, same⟩ : ∃ first second, first < second ∧ visited first = visited second := by
    rw [Function.Injective] at crowded
    push Not at crowded
    obtain ⟨first, second, same, differs⟩ := crowded
    rcases lt_or_gt_of_ne differs with ordered | ordered
    · exact ⟨first, second, ordered, same⟩
    · exact ⟨second, first, ordered, same.symm⟩
  have gap : first.val < second.val := ordered
  have inside := second.isLt
  have split : walk.take (lead + second) =
      walk.take (lead + first) ++ (walk.drop (lead + first)).take (second - first) := by
    rw [← List.take_add]
    congr 1
    omega
  refine ⟨walk.take (lead + first), (walk.drop (lead + first)).take (second - first),
    walk.drop (lead + second), visited first, ?_, ?_, ?_, isVisited first, ?_⟩
  · rw [← split, List.take_append_drop]
  · intro empty
    have length := congrArg List.length empty
    rw [List.length_take, List.length_drop, List.length_nil] at length
    omega
  · rw [List.length_take]
    omega
  · have arrives := isVisited second
    rw [split, follow_append, isVisited first, Option.bind_some, ← same] at arrives
    exact arrives

theorem finite_walks {labels : Set Label} (finite : labels.Finite)
    (labelled : ∀ node label next, step node label = some next → label ∈ labels) (start : Node) (bound : Nat) :
    {walk | (∃ last, follow step start walk = some last) ∧ walk.length ≤ bound}.Finite := by
  have members (walk : List Label) (node last : Node) (walks : follow step node walk = some last) :
      ∀ label ∈ walk, label ∈ labels := by
    induction walk generalizing node with
    | nil => exact nofun
    | cons first rest ih =>
      rw [follow_cons] at walks
      obtain ⟨next, isNext, later⟩ := Option.bind_eq_some_iff.mp walks
      intro label member
      rcases List.mem_cons.mp member with rfl | inRest
      · exact labelled node label next isNext
      · exact ih next later label inRest
  have : Finite labels := finite
  have small := List.finite_length_le labels bound
  apply (small.image (List.map Subtype.val)).subset
  rintro walk ⟨⟨last, walks⟩, short⟩
  refine ⟨walk.attach.map fun label => ⟨label.1, members walk start last walks label.1 label.2⟩, ?_, ?_⟩
  · rw [Set.mem_ofPred_eq, List.length_map, List.length_attach]
    exact short
  · rw [List.map_map]
    exact List.attach_map_subtype_val walk

end Foundation.Walks
