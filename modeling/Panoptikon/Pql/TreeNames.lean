import Panoptikon.Pql.Preprocess
import Panoptikon.Pql.VectorNames

/-!
# The names of a filter tree

An Or and a Not add a CTE that is its own context. By induction on the tree,
what a tree adds is in order, and the tree's own CTE is new.
-/

namespace Panoptikon.Pql

open Foundation Foundation.Sql

section Connectives

variable {defined : List String} {context cte : CteRef} {state after : QueryState}

theorem std_select_within (member : cte.name ∈ defined) : CoreWithin defined (selectStdFromCte cte state) :=
  std_within member (nofun) nothing_within nothing_within
    nothing_within

/-- The number behind "n" is the one before the bump, and the CTE registered for
the new name reads that CTE itself. -/
theorem register_own_compiled (opened : Open [] state) (outputs : OutputsDefined state)
    (kind : String) {query : Select}
    (within : query.Within (Readable (namesOf state.ctes)) (Nameable (namesOf state.ctes)))
    (registered : registerOwn state kind query = (cte, after)) : Compiled state cte after := by
  have fresh : "" ++ state.cteName kind ∉ namesOf state.ctes :=
    opened.fresh (by decide) List.not_mem_nil
  have added : Open [""] { state with ctes := state.ctes ++ [⟨state.cteName kind, query, false⟩] } :=
    opened.add (by decide) List.not_mem_nil String.empty_append.symm within
  rw [String.empty_append] at fresh
  cases registered
  have defined : state.cteName kind ∈ namesOf (state.ctes ++ [⟨state.cteName kind, query, false⟩]) := by
    simp
  exact {
    ready := {
      opened := added.bump rfl rfl
      outputs := outputs.grow rfl rfl (List.prefix_append _ _)
      defined }
    grown := ⟨List.prefix_append _ _, rfl, rfl, rfl⟩
    fresh
    root := by
      intro root found
      have registered : some _ = some root := (AList.lookup_insert _).symm.trans found
      cases registered
      exact Or.inl ⟨rfl, std_select_within defined⟩ }

theorem union_within {first : CteRef} {rest : List CteRef} (members : ∀ sub ∈ first :: rest, sub.name ∈ defined) :
    (unionQuery first rest state).Within (Readable defined) (Nameable defined) := by
  intro core member
  rcases List.mem_cons.mp member with rfl | united
  · exact std_select_within (members first List.mem_cons_self)
  · obtain ⟨sub, isSub, rfl⟩ := List.mem_map.mp united
    exact std_select_within (members sub (List.mem_cons_of_mem _ isSub))

theorem anti_join_within {sub : CteRef} (member : context.name ∈ defined) (subMember : sub.name ∈ defined) :
    (antiJoin context sub state).Within (Readable defined) (Nameable defined) := by
  have named := nameable_defined member
  have subNamed := nameable_defined subMember
  refine single_within (std_within member ?_ (List.forall_mem_singleton.mpr subNamed)
    nothing_within nothing_within)
  refine List.forall_mem_singleton.mpr ⟨readable_defined subMember, subNamed, ?_⟩
  split
  · exact ⟨⟨subNamed, named⟩, subNamed, named⟩
  · exact ⟨subNamed, named⟩

end Connectives

/-- What the operands of an Or leave behind. -/
structure AllCompiled (state : QueryState) (subs : List CteRef) (after : QueryState) : Prop where
  opened : Open [] after
  outputs : OutputsDefined after
  grown : Grown state after
  defined : ∀ sub ∈ subs, sub.name ∈ namesOf after.ctes

mutual

theorem element_ready (floats : FloatText) : ∀ (element : QueryElement) {context cte : CteRef}
    {state after : QueryState}, Ready context state →
    processQueryElement floats element context state = .ok (cte, after) →
    Ready cte after ∧ Grown state after
  | .and_ operands, context, cte, state, after, ready, returned => by
      rw [processQueryElement] at returned
      exact and_ready floats operands ready returned
  | .or_ operands, context, cte, state, after, ready, returned => by
      rw [processQueryElement] at returned
      obtain ⟨⟨subs, middle⟩, processed, registered⟩ := bind_ok returned
      have compiled := or_ready floats operands ready processed
      cases subs with
      | nil => cases registered
      | cons first rest =>
        have united := register_own_compiled compiled.opened compiled.outputs "or"
          (union_within compiled.defined) (Except.ok.inj registered)
        exact ⟨united.ready, compiled.grown.trans united.grown⟩
  | .not_ operand, context, cte, state, after, ready, returned => by
      rw [processQueryElement] at returned
      obtain ⟨⟨sub, middle⟩, processed, registered⟩ := bind_ok returned
      obtain ⟨subReady, grown⟩ := element_ready floats operand ready processed
      have negated := register_own_compiled subReady.opened subReady.outputs _
        (anti_join_within (names_subset grown.ctes ready.defined) subReady.defined)
        (Except.ok.inj registered)
      exact ⟨negated.ready, grown.trans negated.grown⟩
  | .filter filter, context, cte, state, after, ready, returned => by
      rw [processQueryElement] at returned
      have compiled := Filter.build_compiled ready returned
      exact ⟨compiled.ready, compiled.grown⟩

theorem and_ready (floats : FloatText) : ∀ (operands : List QueryElement) {context cte : CteRef}
    {state after : QueryState}, Ready context state →
    processAnd floats operands context state = .ok (cte, after) → Ready cte after ∧ Grown state after
  | [], context, cte, state, after, ready, returned => by
      rw [processAnd] at returned
      cases returned
      exact ⟨ready, Grown.refl _⟩
  | operand :: rest, context, cte, state, after, ready, returned => by
      rw [processAnd] at returned
      obtain ⟨⟨current, middle⟩, processed, later⟩ := bind_ok returned
      obtain ⟨currentReady, grown⟩ := element_ready floats operand ready processed
      obtain ⟨lastReady, further⟩ := and_ready floats rest currentReady later
      exact ⟨lastReady, grown.trans further⟩

theorem or_ready (floats : FloatText) : ∀ (operands : List QueryElement) {context : CteRef}
    {subs : List CteRef} {state after : QueryState}, Ready context state →
    processOr floats operands context state = .ok (subs, after) → AllCompiled state subs after
  | [], context, subs, state, after, ready, returned => by
      rw [processOr] at returned
      cases returned
      exact ⟨ready.opened, ready.outputs, Grown.refl _, nofun⟩
  | operand :: rest, context, subs, state, after, ready, returned => by
      rw [processOr] at returned
      obtain ⟨⟨sub, middle⟩, processed, later⟩ := bind_ok returned
      obtain ⟨⟨others, last⟩, restProcessed, joined⟩ := bind_ok later
      cases joined
      obtain ⟨subReady, grown⟩ := element_ready floats operand ready processed
      have others := or_ready floats rest
        ⟨subReady.opened, subReady.outputs, names_subset grown.ctes ready.defined⟩ restProcessed
      refine ⟨others.opened, others.outputs, grown.trans others.grown, ?_⟩
      exact List.forall_mem_cons.mpr
        ⟨names_subset others.grown.ctes subReady.defined, others.defined⟩

end

mutual

theorem element_compiled (floats : FloatText) : ∀ (element : QueryElement) {context cte : CteRef}
    {state after : QueryState}, element.Preprocessed → Ready context state →
    processQueryElement floats element context state = .ok (cte, after) → Compiled state cte after
  | .and_ operands, context, cte, state, after, shape, ready, returned => by
      rw [processQueryElement] at returned
      rcases and_compiled floats operands shape.2 ready returned with ⟨empty, _⟩ | compiled
      · exact absurd shape.1 (by simp [empty])
      · exact compiled
  | .or_ operands, context, cte, state, after, shape, ready, returned => by
      rw [processQueryElement] at returned
      obtain ⟨⟨subs, middle⟩, processed, registered⟩ := bind_ok returned
      have compiled := or_ready floats operands ready processed
      cases subs with
      | nil => cases registered
      | cons first rest =>
        exact (register_own_compiled compiled.opened compiled.outputs "or"
          (union_within compiled.defined) (Except.ok.inj registered)).after_growth compiled.grown
  | .not_ operand, context, cte, state, after, shape, ready, returned => by
      rw [processQueryElement] at returned
      obtain ⟨⟨sub, middle⟩, processed, registered⟩ := bind_ok returned
      have compiled : Compiled state sub middle := element_compiled floats operand shape ready processed
      exact (register_own_compiled compiled.ready.opened compiled.ready.outputs _
        (anti_join_within (compiled.context_ready ready).defined compiled.ready.defined)
        (Except.ok.inj registered)).after_growth compiled.grown
  | .filter filter, context, cte, state, after, _, ready, returned => by
      rw [processQueryElement] at returned
      exact Filter.build_compiled ready returned

theorem and_compiled (floats : FloatText) : ∀ (operands : List QueryElement)
    {context cte : CteRef} {state after : QueryState}, AllPreprocessed operands →
    Ready context state → processAnd floats operands context state = .ok (cte, after) →
    (operands = [] ∧ cte = context ∧ after = state) ∨ Compiled state cte after
  | [], context, cte, state, after, _, ready, returned => by
      rw [processAnd] at returned
      cases returned
      exact Or.inl ⟨rfl, rfl, rfl⟩
  | operand :: rest, context, cte, state, after, all, ready, returned => by
      rw [processAnd] at returned
      obtain ⟨⟨current, middle⟩, processed, later⟩ := bind_ok returned
      have compiled := element_compiled floats operand all.1 ready processed
      rcases and_compiled floats rest all.2 compiled.ready later with ⟨_, rfl, rfl⟩ | others
      · exact Or.inr compiled
      · exact Or.inr (others.after_growth compiled.grown)

end

end Panoptikon.Pql
