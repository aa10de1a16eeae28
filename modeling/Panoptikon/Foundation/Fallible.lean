import Mathlib.Data.List.Forall2

/-!
# Fallible computations

A traversal in `Except` that returns has returned at every element, and a
sequence that returns has returned at every step.
-/

namespace Foundation

section

variable {Failure Elem Result : Type}

variable {visit : Elem → Except Failure Result} {elems : List Elem}

theorem mapM_ok {results : List Result} (returned : elems.mapM visit = .ok results) :
    List.Forall₂ (fun elem result => visit elem = .ok result) elems results := by
  induction elems generalizing results with
  | nil =>
    cases returned
    exact List.Forall₂.nil
  | cons first rest ih =>
    rw [List.mapM_cons] at returned
    cases visited : visit first with
    | error failure =>
      rw [visited] at returned
      cases returned
    | ok result =>
      cases later : rest.mapM visit with
      | error failure =>
        rw [visited, later] at returned
        cases returned
      | ok others =>
        rw [visited, later] at returned
        cases returned
        exact List.Forall₂.cons visited (ih later)

theorem mapM_returns {result : Elem → Result} (step : ∀ elem ∈ elems, visit elem = .ok (result elem)) :
    elems.mapM visit = .ok (elems.map result) := by
  induction elems with
  | nil => rfl
  | cons first rest ih =>
    rw [List.forall_mem_cons] at step
    rw [List.mapM_cons, step.1, ih step.2]
    rfl

theorem mapM_forall {Inside : Result → Prop} {results : List Result} (returned : elems.mapM visit = .ok results)
    (step : ∀ elem result, visit elem = .ok result → Inside result) : ∀ result ∈ results, Inside result := by
  have visited := mapM_ok returned
  clear returned
  induction visited with
  | nil => exact nofun
  | cons first _ ih => exact List.forall_mem_cons.mpr ⟨step _ _ first, ih⟩

theorem bind_ok {Next : Type} {first : Except Failure Result}
    {next : Result → Except Failure Next} {outcome : Next} (returned : (first >>= next) = .ok outcome) :
    ∃ result, first = .ok result ∧ next result = .ok outcome := by
  cases first with
  | error failure => cases returned
  | ok result => exact ⟨result, rfl, returned⟩

theorem foldlM_append_ok {State : Type} {step : State → Elem → Except Failure State} {front back : List Elem}
    {first middle last : State} (former : front.foldlM step first = .ok middle)
    (latter : back.foldlM step middle = .ok last) : (front ++ back).foldlM step first = .ok last := by
  rw [List.foldlM_append, former]
  exact latter

end

end Foundation
