import Panoptikon.Foundation.Fallible
import Panoptikon.Foundation.NumberedNames
import Panoptikon.Foundation.Sql.Names
import Panoptikon.Pql.Builder

/-!
# The names of a build

Every CTE a filter defines carries the counter value at which the filter was
compiled, behind a word that no other CTE of the filter has; the counter moves
on before the next filter. So no name is defined twice, and every select
mentions base tables, its own aliases and names defined before it.
-/

namespace Panoptikon.Pql

open Foundation Foundation.Sql

def baseTables : List String :=
  ["files", "items", "item_data", "extracted_text", "setters", "extracted_text_fts",
   "files_path_fts", "tags", "tags_items", "embeddings", "embedding_quants",
   "item_extraction_errors", "user_data.bookmarks", "user_data.pinboard_version_items",
   "user_data.pinboards"]

/-- The aliases the filters join base tables and collections under. -/
def localNames : List String :=
  ["src_item_data", "src_setters", "derived_data", "text_data", "text_setters", "vec_data",
   "vec_setters", "failed_for_setters", "other_embeddings", "main_embeddings"]

def Readable (defined : List String) (name : String) : Prop := name ∈ baseTables ∨ name ∈ defined

def Nameable (defined : List String) (name : String) : Prop :=
  name ∈ baseTables ∨ name ∈ localNames ∨ name ∈ defined

abbrev CoreWithin (defined : List String) (core : SelectCore) : Prop :=
  core.Within (Readable defined) (Nameable defined)

abbrev ExprWithin (defined : List String) (expr : Expr) : Prop :=
  expr.Within (Readable defined) (Nameable defined)

variable {defined : List String} {name : String}

theorem readable_base (base : name ∈ baseTables) : Readable defined name := Or.inl base

theorem nameable_fixed (fixed : name ∈ baseTables ++ localNames) : Nameable defined name :=
  (List.mem_append.mp fixed).imp_right Or.inl

theorem readable_defined (member : name ∈ defined) : Readable defined name := Or.inr member

theorem nameable_defined (member : name ∈ defined) : Nameable defined name := Or.inr (Or.inr member)

abbrev namesOf (ctes : List CteDefinition) : List String := ctes.map CteDefinition.name

/-- Each definition has a new name and mentions only what is there before it. -/
inductive Ordered : List CteDefinition → Prop where
  | nil : Ordered []
  | snoc {ctes : List CteDefinition} {cte : CteDefinition} (earlier : Ordered ctes)
      (fresh : cte.name ∉ namesOf ctes)
      (within : cte.query.Within (Readable (namesOf ctes)) (Nameable (namesOf ctes))) :
      Ordered (ctes ++ [cte])

theorem Ordered.nodup {ctes : List CteDefinition} (ordered : Ordered ctes) : (namesOf ctes).Nodup := by
  induction ordered with
  | nil => exact List.nodup_nil
  | snoc _ fresh _ ih =>
    rw [namesOf, List.map_append, List.nodup_append]
    refine ⟨ih, List.nodup_singleton _, ?_⟩
    rintro name member other isNew rfl
    exact fresh (List.mem_singleton.mp isNew ▸ member)

theorem Ordered.defined_before {ctes before after : List CteDefinition} {cte : CteDefinition}
    (ordered : Ordered ctes) (split : ctes = before ++ cte :: after) :
    cte.query.Within (Readable (namesOf before)) (Nameable (namesOf before)) := by
  induction ordered generalizing after with
  | nil => simp at split
  | @snoc ctes last _ _ within ih =>
    rcases List.eq_nil_or_concat after with rfl | ⟨rest, other, rfl⟩
    · obtain ⟨rfl, same⟩ := List.append_inj' split rfl
      cases same
      exact within
    · rw [List.concat_eq_append, ← List.cons_append, ← List.append_assoc] at split
      exact ih (List.append_inj' split rfl).1

section Counter

variable {state : QueryState}

variable (word kind : String)

theorem prefixed_name : word ++ state.cteName kind =
      (word ++ "n") ++ toString state.cteCounter ++ ("_" ++ kind) := by
  simp [QueryState.cteName, String.append_assoc]

theorem number_of_cte_name (wordless : DigitFree (word ++ "n")) :
    numberOf (word ++ state.cteName kind) = some state.cteCounter := by
  rw [prefixed_name]
  refine number_of_numbered wordless fun char first => ?_
  rw [String.toList_append] at first
  cases first
  rfl

theorem head_of_cte_name (wordless : DigitFree (word ++ "n")) :
    headOf (word ++ state.cteName kind) = (word ++ "n").toList := by
  rw [prefixed_name]
  exact head_of_numbered wordless

/-- The CTEs are in order. Beside the first one every name has a number, and at
the current counter value only the words in `used` are taken. -/
structure Open (used : List String) (state : QueryState) : Prop where
  ordered : Ordered state.ctes
  numbers : ∀ cte ∈ state.ctes, cte.name = "begin_cte" ∨
    ∃ number, numberOf cte.name = some number ∧ (number < state.cteCounter ∨
      number = state.cteCounter ∧ headOf cte.name ∈ used.map fun word => (word ++ "n").toList)

theorem number_of_begin : numberOf "begin_cte" = none := number_of_digit_free (by decide)

variable {used : List String}

theorem Open.fresh (opened : Open used state) {word kind : String}
    (wordless : DigitFree (word ++ "n")) (unused : word ∉ used) :
    word ++ state.cteName kind ∉ namesOf state.ctes := by
  intro member
  obtain ⟨cte, isCte, same⟩ := List.mem_map.mp member
  have numbered : numberOf (word ++ state.cteName kind) = some state.cteCounter :=
    number_of_cte_name word kind wordless
  rcases opened.numbers cte isCte with isBegin | ⟨number, ofCte, place⟩
  · rw [← same, isBegin, number_of_begin] at numbered
    cases numbered
  · rw [same, numbered] at ofCte
    cases ofCte
    rcases place with below | ⟨_, taken⟩
    · exact absurd below (Nat.lt_irrefl _)
    · rw [same, head_of_cte_name word kind wordless] at taken
      obtain ⟨other, isUsed, sameWord⟩ := List.mem_map.mp taken
      have equal : other = word := String.append_left_inj "n" |>.mp (String.toList_inj.mp sameWord)
      exact unused (equal ▸ isUsed)

theorem Open.congr {other : QueryState} (opened : Open used state)
    (ctes : other.ctes = state.ctes) (counter : other.cteCounter = state.cteCounter) : Open used other where
  ordered := ctes ▸ opened.ordered
  numbers := by
    rw [ctes, counter]
    exact opened.numbers

theorem Open.add (opened : Open used state) {word kind : String}
    {cte : CteDefinition} (wordless : DigitFree (word ++ "n")) (unused : word ∉ used)
    (name : cte.name = word ++ state.cteName kind)
    (within : cte.query.Within (Readable (namesOf state.ctes)) (Nameable (namesOf state.ctes))) :
    Open (word :: used) { state with ctes := state.ctes ++ [cte] } where
  ordered := .snoc opened.ordered (name ▸ opened.fresh wordless unused) within
  numbers := by
    intro other member
    rcases List.mem_append.mp member with earlier | isNew
    · refine (opened.numbers other earlier).imp_right fun ⟨number, numbered, place⟩ => ?_
      exact ⟨number, numbered, place.imp_right fun now => ⟨now.1, List.mem_cons_of_mem _ now.2⟩⟩
    · rw [List.mem_singleton.mp isNew, name]
      exact Or.inr ⟨_, number_of_cte_name word kind wordless,
        Or.inr ⟨rfl, head_of_cte_name word kind wordless ▸ List.mem_cons_self⟩⟩

theorem Open.bump {other : QueryState} (opened : Open used state)
    (ctes : other.ctes = state.ctes) (counter : other.cteCounter = state.cteCounter + 1) : Open [] other where
  ordered := ctes ▸ opened.ordered
  numbers := by
    rw [ctes, counter]
    intro cte member
    refine (opened.numbers cte member).imp_right fun ⟨number, numbered, place⟩ => ?_
    exact ⟨number, numbered, Or.inl (by omega)⟩

theorem Open.not_digit_free (opened : Open used state) {word : String}
    (wordless : DigitFree word) (other : word ≠ "begin_cte") : word ∉ namesOf state.ctes := by
  intro member
  obtain ⟨cte, isCte, rfl⟩ := List.mem_map.mp member
  rcases opened.numbers cte isCte with isBegin | ⟨number, numbered, _⟩
  · exact other isBegin
  · rw [number_of_digit_free wordless] at numbered
    cases numbered

theorem Open.not_fixed (opened : Open used state)
    (member : name ∈ namesOf state.ctes) : name ∉ baseTables ++ localNames := by
  have wordless : ∀ fixed ∈ baseTables ++ localNames, DigitFree fixed ∧ fixed ≠ "begin_cte" := by
    decide
  exact fun fixed =>
    opened.not_digit_free (wordless name fixed).1 (wordless name fixed).2 member

end Counter

/-- The outputs waiting for the final query belong to CTEs that exist. -/
structure OutputsDefined (state : QueryState) : Prop where
  orders : ∀ order ∈ state.orderList, order.cte.name ∈ namesOf state.ctes
  extras : ∀ extra ∈ state.extraColumns, extra.cte.name ∈ namesOf state.ctes

/-- What an element can be compiled in. -/
structure Ready (context : CteRef) (state : QueryState) : Prop where
  opened : Open [] state
  outputs : OutputsDefined state
  defined : context.name ∈ namesOf state.ctes

/-- CTEs are only added, and what kind of query is built stays. -/
structure Grown (state after : QueryState) : Prop where
  ctes : state.ctes <+: after.ctes
  isCountQuery : after.isCountQuery = state.isCountQuery
  itemDataQuery : after.itemDataQuery = state.itemDataQuery
  entity : after.entity = state.entity

/-- The select registered for a CTE either reads that CTE, or is the CTE's own
query, the last one defined. -/
def RootSelect (cte : CteRef) (state : QueryState) : Prop :=
  ∀ root, state.selects.lookup cte.name = some root →
    (root.context = cte ∧ CoreWithin (namesOf state.ctes) root.select) ∨
    ∃ before last, state.ctes = before ++ [last] ∧ last.name = cte.name ∧
      CoreWithin (namesOf before) root.select ∧ Nameable (namesOf before) root.context.name

structure Compiled (state : QueryState) (cte : CteRef) (after : QueryState) : Prop where
  ready : Ready cte after
  grown : Grown state after
  fresh : cte.name ∉ namesOf state.ctes
  root : RootSelect cte after

theorem names_subset {ctes more : List CteDefinition} (grows : ctes <+: more) : namesOf ctes ⊆ namesOf more :=
  (grows.map CteDefinition.name).subset

theorem Grown.refl (state : QueryState) : Grown state state :=
  ⟨List.prefix_refl _, rfl, rfl, rfl⟩

theorem Grown.trans {first second third : QueryState} (early : Grown first second)
    (late : Grown second third) : Grown first third where
  ctes := early.ctes.trans late.ctes
  isCountQuery := late.isCountQuery.trans early.isCountQuery
  itemDataQuery := late.itemDataQuery.trans early.itemDataQuery
  entity := late.entity.trans early.entity

theorem OutputsDefined.grow {state other : QueryState} (outputs : OutputsDefined state)
    (orders : other.orderList = state.orderList) (extras : other.extraColumns = state.extraColumns)
    (ctes : state.ctes <+: other.ctes) : OutputsDefined other where
  orders := orders ▸ fun order member => names_subset ctes (outputs.orders order member)
  extras := extras ▸ fun extra member => names_subset ctes (outputs.extras extra member)

theorem Compiled.context_ready {state after : QueryState} {context cte : CteRef}
    (compiled : Compiled state cte after) (ready : Ready context state) : Ready context after :=
  ⟨compiled.ready.opened, compiled.ready.outputs,
    names_subset compiled.grown.ctes ready.defined⟩

variable {cte : CteRef}

theorem Compiled.after_growth {state middle after : QueryState}
    (compiled : Compiled middle cte after) (grown : Grown state middle) : Compiled state cte after where
  ready := compiled.ready
  grown := grown.trans compiled.grown
  fresh := fun member => compiled.fresh (names_subset grown.ctes member)
  root := compiled.root

theorem Compiled.with_outputs {state after other : QueryState}
    (compiled : Compiled state cte after) (ctes : other.ctes = after.ctes)
    (grown : Grown after other) (counter : other.cteCounter = after.cteCounter)
    (selects : other.selects = after.selects) (outputs : OutputsDefined other) : Compiled state cte other where
  ready := ⟨compiled.ready.opened.congr ctes counter, outputs, ctes ▸ compiled.ready.defined⟩
  grown := compiled.grown.trans grown
  fresh := compiled.fresh
  root := by
    unfold RootSelect
    rw [ctes, selects]
    exact compiled.root

/-- A filter has added definitions under the words in `used`, and goes on at the
same counter value. -/
structure Staged (used : List String) (state middle : QueryState) : Prop where
  opened : Open used middle
  outputs : OutputsDefined middle
  grown : Grown state middle
  counter : middle.cteCounter = state.cteCounter

section Wrapping

variable {state middle : QueryState} {used defined : List String} {query : SelectCore}
  {context : CteRef} {sort : SortableOptions} {joinedTables : JoinedTables}

theorem Ready.staged (ready : Ready context state) : Staged [] state state :=
  ⟨ready.opened, ready.outputs, Grown.refl _, rfl⟩

theorem Staged.same_name (staged : Staged used state middle) (kind : String) :
    state.cteName kind = middle.cteName kind := by
  rw [QueryState.cteName, QueryState.cteName, staged.counter]

theorem single_within (within : CoreWithin defined query) :
    (Select.mk query []).Within (Readable defined) (Nameable defined) :=
  fun _ member => List.mem_singleton.mp member ▸ within

theorem created_defined (name : String) (query : Select) : name ∈ namesOf (createCte state name query).2.ctes := by
  simp [createCte]

theorem Staged.subset (staged : Staged used state middle) :
    namesOf state.ctes ⊆ namesOf middle.ctes := names_subset staged.grown.ctes

variable {after : QueryState}

theorem Staged.add (staged : Staged used state middle) (word kind : String)
    (within : CoreWithin (namesOf middle.ctes) query) (materialized : Bool)
    (wordless : DigitFree (word ++ "n")) (unused : word ∉ used)
    (added : after = { middle with ctes := middle.ctes ++
      [⟨word ++ state.cteName kind, { core := query }, materialized⟩] }) :
    Staged (word :: used) state after where
  opened := by
    rw [added, staged.same_name]
    exact staged.opened.add wordless unused rfl (single_within within)
  outputs := added ▸ staged.outputs.grow rfl rfl (List.prefix_append _ _)
  grown := added ▸ staged.grown.trans ⟨List.prefix_append _ _, rfl, rfl, rfl⟩
  counter := added ▸ staged.counter

theorem Staged.create (staged : Staged used state middle) (word kind : String)
    (within : CoreWithin (namesOf middle.ctes) query) (wordless : DigitFree (word ++ "n"))
    (unused : word ∉ used) : Staged (word :: used) state
      (createCte middle (word ++ state.cteName kind) { core := query }).2 :=
  staged.add word kind within false wordless unused rfl

theorem wrap_unsorted_compiled (kind : String)
    (wrapped : wrapUnsorted middle query context (state.cteName kind) joinedTables = (cte, after))
    (staged : Staged used state middle) (unused : "" ∉ used) (within : CoreWithin (namesOf middle.ctes) query)
    (named : Nameable (namesOf middle.ctes) context.name) : Compiled state cte after := by
  cases wrapped
  have fresh : "" ++ middle.cteName kind ∉ namesOf middle.ctes :=
    staged.opened.fresh (by decide) unused
  have added := (staged.create "" kind within (by decide) unused).opened
  rw [String.empty_append] at fresh added
  exact {
    ready := {
      opened := added.bump rfl rfl
      outputs := staged.outputs.grow rfl rfl (List.prefix_append _ _)
      defined := by simp }
    grown := staged.grown.trans ⟨List.prefix_append _ _, rfl, rfl, rfl⟩
    fresh := fun member => fresh (staged.same_name kind ▸ staged.subset member)
    root := by
      intro root registered
      have same : root = ⟨query, context, joinedTables⟩ := by
        simpa [wrapQuery, createCte, eq_comm] using registered
      subst same
      exact Or.inr ⟨middle.ctes, _, rfl, rfl, within, named⟩ }

theorem register_outputs_compiled (compiled : Compiled state cte after) (sort : SortableOptions) :
    Compiled state cte (registerOutputs after cte sort) := by
  refine compiled.with_outputs rfl ⟨List.prefix_refl _, rfl, rfl, rfl⟩ rfl rfl ⟨?_, ?_⟩
  · intro order member
    rcases List.mem_append.mp member with earlier | isNew
    · exact compiled.ready.outputs.orders order earlier
    · split at isNew
      · rw [List.mem_singleton.mp isNew]
        exact compiled.ready.defined
      · cases isNew
  · intro extra member
    rcases List.mem_append.mp member with earlier | isNew
    · exact compiled.ready.outputs.extras extra earlier
    · obtain ⟨label, _, rfl⟩ := List.mem_map.mp isNew
      exact compiled.ready.defined

theorem star_within (member : name ∈ defined)
    (conditions : List Expr) (within : ∀ condition ∈ conditions, ExprWithin defined condition) : CoreWithin defined
      { items := [.star name], source := name, sourceName := name, conditions } where
  source := readable_defined member
  sourceName := nameable_defined member
  items _ isItem := List.mem_singleton.mp isItem ▸ nameable_defined member
  joins _ absent := absurd absent List.not_mem_nil
  conditions := within
  groupBy _ absent := absurd absent List.not_mem_nil
  having _ absent := absurd absent List.not_mem_nil
  orderBy _ absent := absurd absent List.not_mem_nil

theorem apply_sort_bounds_staged (staged : Staged used state middle) (unused : "" ∉ used)
    (unwrapped : "wrapped_" ∉ used) (kind : String) (within : CoreWithin (namesOf middle.ctes) query)
    (named : Nameable (namesOf middle.ctes) context.name) {bounded : SelectCore × CteRef × JoinedTables}
    (applied : applySortBounds middle query context (state.cteName kind) sort joinedTables =
      (bounded, after)) :
    ∃ more, "" ∉ more ∧ Staged more state after ∧ CoreWithin (namesOf after.ctes) bounded.1 ∧
      Nameable (namesOf after.ctes) bounded.2.1.name := by
  unfold applySortBounds at applied
  split at applied
  · cases applied
    exact ⟨used, unused, staged, within, named⟩
  · cases applied
    have member : "wrapped_" ++ state.cteName kind ∈ namesOf (createCte middle
        ("wrapped_" ++ state.cteName kind) { core := query }).2.ctes := created_defined _ _
    refine ⟨"wrapped_" :: used, by simp [unused],
      staged.create "wrapped_" kind within (by decide) unwrapped,
      star_within member _ ?_, nameable_defined member⟩
    intro condition isCondition
    rcases List.mem_append.mp isCondition with above | below
    · obtain ⟨bound, _, rfl⟩ := List.mem_map.mp above
      exact ⟨nameable_defined member, by cases bound <;> trivial⟩
    · obtain ⟨bound, _, rfl⟩ := List.mem_map.mp below
      exact ⟨nameable_defined member, by cases bound <;> trivial⟩

theorem wrap_sorted_eq {cteName : String} {bounded : SelectCore × CteRef × JoinedTables}
    (applied : applySortBounds state query context cteName sort joinedTables = (bounded, after)) :
    wrapSorted state query context cteName sort joinedTables =
      let wrapped := wrapUnsorted after bounded.1 bounded.2.1 cteName bounded.2.2
      (wrapped.1, if wrapped.2.isCountQuery then wrapped.2
        else registerOutputs wrapped.2 wrapped.1 sort) := by
  unfold wrapSorted
  rw [applied]
  rfl

theorem wrap_sorted_compiled (kind : String)
    (wrapped : wrapSorted middle query context (state.cteName kind) sort joinedTables =
      (cte, after))
    (staged : Staged used state middle) (unused : "" ∉ used) (unwrapped : "wrapped_" ∉ used)
    (within : CoreWithin (namesOf middle.ctes) query)
    (named : Nameable (namesOf middle.ctes) context.name) : Compiled state cte after := by
  obtain ⟨bounded, next, applied⟩ : ∃ bounded next, applySortBounds middle query context
      (state.cteName kind) sort joinedTables = (bounded, next) := ⟨_, _, rfl⟩
  obtain ⟨more, free, stillStaged, inside, boundedNamed⟩ :=
    apply_sort_bounds_staged staged unused unwrapped kind within named applied
  obtain ⟨own, done, ended⟩ : ∃ own done, wrapUnsorted next bounded.1 bounded.2.1
      (state.cteName kind) bounded.2.2 = (own, done) := ⟨_, _, rfl⟩
  have compiled := wrap_unsorted_compiled kind ended stillStaged free inside boundedNamed
  rw [wrap_sorted_eq applied, ended] at wrapped
  cases wrapped
  dsimp only
  split
  · exact compiled
  · exact register_outputs_compiled compiled sort

end Wrapping

end Panoptikon.Pql
