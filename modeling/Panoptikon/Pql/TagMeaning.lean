import Panoptikon.Foundation.Classes
import Panoptikon.Pql.Compilation

/-!
# What the tag filter keeps

`match_tags` counts the names, or the pairs of a setter and a name, that the tag
rows of an item carry, and compares the count with the lengths of the argument
lists. A name or a setter that is listed twice is counted once.
-/

namespace Panoptikon.Pql

open Foundation Foundation.Sql

/-- `setters.name TEXT NOT NULL UNIQUE` and `item_data.setter_id INTEGER NOT NULL`. -/
structure TagSchema (tables : Tables) : Prop where
  setterNames : ∀ setter ∈ tables "setters", ∃ name, setter.get "name" = .text name
  setterOnce : ∀ left ∈ tables "setters", ∀ right ∈ tables "setters",
    left.get "name" = right.get "name" → left = right
  setterIds : ∀ data ∈ tables "item_data", ∃ number, data.get "setter_id" = .int number

/-- A tag on an item: the data row, its setter, the tagging and the tag. -/
structure TagRow where
  data : Row
  setter : Row
  tagging : Row
  tag : Row

/-- The four rows belong together and to the item. -/
structure TagRow.On (tables : Tables) (item : Value) (found : TagRow) : Prop where
  data : found.data ∈ tables "item_data"
  setter : found.setter ∈ tables "setters"
  tagging : found.tagging ∈ tables "tags_items"
  tag : found.tag ∈ tables "tags"
  ofItem : compareValues .eq (found.data.get "item_id") item = some true
  isTags : compareValues .eq (found.data.get "data_type") (.text "tags") = some true
  bySetter : compareValues .eq (found.setter.get "id") (found.data.get "setter_id") = some true
  ofData : compareValues .eq (found.tagging.get "item_data_id") (found.data.get "id") = some true
  ofTag : compareValues .eq (found.tag.get "id") (found.tagging.get "tag_id") = some true

/-- The namespace is the one asked for or lies below it. -/
def spaceUnder (space : Value) (asked : String) : Prop :=
  ∃ text : String, space = .text text ∧ asked.toList <+: text.toList

/-- What the query tests: wildcards of the name asked for stay wildcards, and the case is ignored. -/
def spaceLike (dialect : Dialect) (space : Value) (asked : String) : Prop :=
  likeTruth dialect space (asked ++ "%") = some true

/-- The confidence, the setter and the namespace are among those asked for. -/
structure TagRow.Passes (within : Value → String → Prop) (args : TagsArgs) (found : TagRow) : Prop where
  confident : 0 < args.minConfidence →
    compareValues .gte (found.tagging.get "confidence") (.real args.minConfidence) = some true
  bySetter : args.setters ≠ [] → ∃ name ∈ args.setters, found.setter.get "name" = .text name
  inNamespace : args.namespaces ≠ [] → ∃ asked ∈ args.namespaces, within (found.tag.get "namespace") asked

/-- The item has the tag from the setter. -/
def TagsArgs.Attached (within : Value → String → Prop) (tables : Tables) (args : TagsArgs) (item : Value)
    (tag setter : String) : Prop :=
  ∃ found : TagRow, found.On tables item ∧ found.Passes within args ∧
    found.tag.get "name" = .text tag ∧ found.setter.get "name" = .text setter

/-- Every listed tag is on the item, where asked for from every listed setter. -/
def TagsArgs.Means (within : Value → String → Prop) (tables : Tables) (args : TagsArgs) (item : Value) : Prop :=
  ∀ tag ∈ args.tags, (∃ setter, args.Attached within tables item tag setter) ∧
    (args.allSettersRequired = true → ∀ setter ∈ args.setters, args.Attached within tables item tag setter)

/-- An item that has the tags in namespaces like those asked for has them in those asked for. -/
def TagsArgs.ReadLiterally (dialect : Dialect) (tables : Tables) (args : TagsArgs) (item : Value) : Prop :=
  args.Means (spaceLike dialect) tables item → args.Means spaceUnder tables item

theorem TagsArgs.attached_any_setter (within : Value → String → Prop) (tables : Tables) (args : TagsArgs)
    (item : Value) (tag setter : String) :
    { args with allSettersRequired := false }.Attached within tables item tag setter ↔
      args.Attached within tables item tag setter := by
  constructor
  · rintro ⟨found, on, passes, names⟩
    exact ⟨found, on, ⟨passes.confident, passes.bySetter, passes.inNamespace⟩, names⟩
  · rintro ⟨found, on, passes, names⟩
    exact ⟨found, on, ⟨passes.confident, passes.bySetter, passes.inNamespace⟩, names⟩

variable {tables : Tables}

theorem TagsArgs.Means.of_spaces {within other : Value → String → Prop} {args : TagsArgs}
    {item : Value} (means : args.Means within tables item) (spaces : ∀ tag ∈ tables "tags", ∀ asked ∈ args.namespaces,
      within (tag.get "namespace") asked → ∃ asked ∈ args.namespaces, other (tag.get "namespace") asked) :
    args.Means other tables item := by
  have attached {tag setter : String} : args.Attached within tables item tag setter →
      args.Attached other tables item tag setter := by
    rintro ⟨found, on, passes, names⟩
    refine ⟨found, on, ⟨passes.confident, passes.bySetter, fun some_ => ?_⟩, names⟩
    obtain ⟨asked, isAsked, inside⟩ := passes.inNamespace some_
    exact spaces found.tag on.tag asked isAsked inside
  intro tag isTag
  exact ⟨(means tag isTag).1.imp fun _ => attached, fun required setter isSetter =>
    attached ((means tag isTag).2 required setter isSetter)⟩

theorem space_like_of_under (dialect : Dialect) {space : Value} {asked : String} (under : spaceUnder space asked) :
    spaceLike dialect space asked := by
  obtain ⟨text, rfl, same⟩ := under
  simp [spaceLike, likeTruth, Dialect.textOf, like, like_chars_prefix same]

example (dialect : Dialect) :
    spaceLike dialect (.text "srcXa") "src_a" ∧ ¬spaceUnder (.text "srcXa") "src_a" := by
  constructor
  · cases folded : dialect.caseSensitiveLike <;> simp only [spaceLike, likeTruth, Dialect.textOf, folded] <;> decide
  · rintro ⟨text, same, starts⟩
    cases same
    exact absurd starts (by decide)

/-- The namespaces are read literally where each namespace like one of them lies under one. -/
theorem TagsArgs.read_literally (dialect : Dialect) {args : TagsArgs} (item : Value)
    (spaces : ∀ tag ∈ tables "tags", ∀ asked ∈ args.namespaces, spaceLike dialect (tag.get "namespace") asked →
      ∃ asked ∈ args.namespaces, spaceUnder (tag.get "namespace") asked) :
    args.ReadLiterally dialect tables item := fun means => means.of_spaces spaces

/-- No entry of a list that is counted is repeated. -/
def TagsArgs.Once (args : TagsArgs) : Prop :=
  args.tags.Nodup ∧ (args.allSettersRequired = true → args.setters.Nodup)

instance (args : TagsArgs) : Decidable args.Once := inferInstanceAs (Decidable (_ ∧ _))

theorem compare_text_iff (value : Value) (text : String) :
    compareValues .eq value (.text text) = some true ↔ value = .text text := by
  rw [compare_values_eq_iff]
  constructor
  · rintro ⟨-, -, same⟩
    cases value with
    | real number =>
      rcases Value.canon_real_class number with ⟨whole, isInt⟩ | isReal
      · rw [isInt] at same
        cases same
      · rw [isReal] at same
        cases same
    | null | int _ | text _ | blob _ => exact same
  · rintro rfl
    exact ⟨nofun, nofun, rfl⟩

theorem in_texts_truth (value : Value) (texts : List String) :
    inTruth value (texts.map .text) = some true ↔ ∃ text ∈ texts, value = .text text := by
  unfold inTruth
  induction texts with
  | nil => simp
  | cons first rest ih =>
    rw [List.map_cons, List.foldr_cons, or_truth_eq_true, ih, compare_text_iff]
    rw [List.exists_mem_cons_iff]

variable {scope : Scope}

theorem fold_or_holds {dialect : Dialect} (exprs : List Expr) (first : Expr) :
    (exprs.foldl .or first).holds dialect tables scope = true ↔
      ∃ expr ∈ first :: exprs, expr.holds dialect tables scope = true := by
  induction exprs generalizing first with
  | nil => simp
  | cons next rest ih =>
    have either : (Expr.or first next).holds dialect tables scope = true ↔
        first.holds dialect tables scope = true ∨ next.holds dialect tables scope = true := by
      simp [Expr.holds, Expr.eval]
    rw [List.foldl_cons, ih, List.exists_mem_cons_iff, List.exists_mem_cons_iff,
      List.exists_mem_cons_iff, either, or_assoc]

namespace MatchTags

section

variable {dialect : Dialect} {database : Database} {state after : QueryState}
  {context cte : CteRef} {filter : MatchTags}

/-- The scope of a tag row on a row of the context. -/
def scopeOf (context : CteRef) (row : Row) (found : TagRow) : Scope :=
  [("tags", found.tag), ("tags_items", found.tagging), ("setters", found.setter),
    ("item_data", found.data), (context.name, row)]

section Scope

variable (context : CteRef) (row : Row) (found : TagRow)

variable (column : String)

theorem scope_tag : (scopeOf context row found).get "tags" column = found.tag.get column := rfl

theorem scope_tagging : (scopeOf context row found).get "tags_items" column = found.tagging.get column := rfl

theorem scope_setter : (scopeOf context row found).get "setters" column = found.setter.get column := rfl

end Scope

variable (dialect context) in
theorem namespace_holds (tables : Tables) (row : Row) (found : TagRow) (first : String) (rest : List String) :
    ((rest.map fun name => Expr.like (.column "tags" "namespace") (name ++ "%")).foldl Expr.or
        (.like (.column "tags" "namespace") (first ++ "%"))).holds dialect tables
          (scopeOf context row found) = true ↔
      ∃ asked ∈ first :: rest, spaceLike dialect (found.tag.get "namespace") asked := by
  have single (name : String) :
      (Expr.like (.column "tags" "namespace") (name ++ "%")).holds dialect tables
        (scopeOf context row found) = true ↔
      likeTruth dialect (found.tag.get "namespace") (name ++ "%") = some true := by
    simp [Expr.holds, Expr.eval, scope_tag]
  rw [fold_or_holds, ← List.map_cons (f := fun name => Expr.like (.column "tags" "namespace") (name ++ "%"))]
  constructor
  · rintro ⟨expr, member, holds⟩
    obtain ⟨name, isName, rfl⟩ := List.mem_map.mp member
    exact ⟨name, isName, (single name).mp holds⟩
  · rintro ⟨name, isName, like_⟩
    exact ⟨_, List.mem_map_of_mem isName, (single name).mpr like_⟩

theorem conditions_hold (tables : Tables) (row : Row) (found : TagRow) :
    (filter.conditions.all fun condition => condition.holds dialect tables (scopeOf context row found)) = true ↔
      found.Passes (spaceLike dialect) filter.matchTags ∧
        ∃ tag ∈ filter.matchTags.tags, found.tag.get "name" = .text tag := by
  have inTags : (inTexts (.column "tags" "name") filter.matchTags.tags).holds dialect tables
      (scopeOf context row found) = true ↔
      ∃ tag ∈ filter.matchTags.tags, found.tag.get "name" = .text tag := by
    simp only [inTexts, Expr.holds, Expr.eval, Value.truth_of_truth, scope_tag, decide_eq_true_iff, in_texts_truth]
  have confident : ((positiveReal (.column "tags_items" "confidence") .gte
        (some filter.matchTags.minConfidence)).all fun condition =>
          condition.holds dialect tables (scopeOf context row found)) = true ↔
      (0 < filter.matchTags.minConfidence → compareValues .gte (found.tagging.get "confidence")
        (.real filter.matchTags.minConfidence) = some true) := by
    by_cases positive : 0 < filter.matchTags.minConfidence
    · simp [positiveReal, positive, Expr.holds, Expr.eval, scope_tagging]
    · simp [positiveReal, positive]
  have bySetter : ((inTextsUnlessEmpty (.column "setters" "name") filter.matchTags.setters).all fun condition =>
        condition.holds dialect tables (scopeOf context row found)) = true ↔
      (filter.matchTags.setters ≠ [] →
        ∃ name ∈ filter.matchTags.setters, found.setter.get "name" = .text name) := by
    cases filter.matchTags.setters with
    | nil => simp [inTextsUnlessEmpty]
    | cons first rest =>
      simp [inTextsUnlessEmpty, inTexts, Expr.holds, Expr.eval, scope_setter, in_texts_truth, -List.map_cons]
  unfold conditions
  dsimp only
  rw [List.all_append, List.all_append, List.all_append, Bool.and_eq_true, Bool.and_eq_true, Bool.and_eq_true,
    confident, bySetter, List.all_cons, List.all_nil, Bool.and_true, inTags]
  cases namespaces : filter.matchTags.namespaces with
  | nil =>
    constructor
    · rintro ⟨⟨⟨tagged, sure⟩, setter⟩, -⟩
      exact ⟨⟨sure, setter, fun some_ => absurd namespaces some_⟩, tagged⟩
    · rintro ⟨passes, tagged⟩
      exact ⟨⟨⟨tagged, passes.confident⟩, passes.bySetter⟩, rfl⟩
  | cons first rest =>
    have inSpace := namespace_holds dialect context tables row found first rest
    rw [List.all_cons, List.all_nil, Bool.and_true, inSpace]
    constructor
    · rintro ⟨⟨⟨tagged, sure⟩, setter⟩, like_⟩
      exact ⟨⟨sure, setter, fun _ => namespaces ▸ like_⟩, tagged⟩
    · rintro ⟨passes, tagged⟩
      have like_ := passes.inNamespace (by rw [namespaces]; exact List.cons_ne_nil first rest)
      exact ⟨⟨⟨tagged, passes.confident⟩, passes.bySetter⟩, namespaces ▸ like_⟩

theorem mem_joined (ready : Ready context state) (row : Row) (scope : Scope) :
    scope ∈ joinAll dialect (state.bound dialect database.tables) (filter.matchingItems context state).joins
        [(context.name, row)] ↔
      ∃ found : TagRow, scope = scopeOf context row found ∧
        found.On database.tables (row.get "item_id") := by
  have base {name : String} (isBase : name ∈ baseTables) :
      state.bound dialect database.tables name = database.tables name := bound_base ready.opened isBase
  have apart : context.name ≠ "item_data" := context_not_base ready (by decide)
  have joins : (filter.matchingItems context state).joins =
      [innerJoin "item_data" (.and
        (equals (.column "item_data" "item_id") (context.column "item_id"))
        (equals (.column "item_data" "data_type") (.val (.text "tags")))),
       innerJoin "setters" (equals (.column "setters" "id") (.column "item_data" "setter_id")),
       innerJoin "tags_items" (equals (.column "tags_items" "item_data_id") (.column "item_data" "id")),
       innerJoin "tags" (equals (.column "tags" "id") (.column "tags_items" "tag_id"))] := by
    unfold matchingItems addRankColumnExpr
    dsimp only
    split_ifs <;> rfl
  have itemOf (data : Row) : Scope.table [("item_data", data), (context.name, row)] context.name = row := by
    rw [table_cons_of_ne apart, table_cons_self]
  rw [joins]
  simp only [joinAll, Join.extend, Join.matched, innerJoin, List.mem_flatMap, List.mem_filter, List.mem_map,
    List.mem_singleton, base (show "item_data" ∈ baseTables by decide),
    base (show "setters" ∈ baseTables by decide), base (show "tags_items" ∈ baseTables by decide),
    base (show "tags" ∈ baseTables by decide), Expr.holds, Expr.eval, equals, CteRef.column, Scope.get,
    Value.truth_of_truth, decide_eq_true_iff, and_truth_eq_true]
  constructor
  · rintro ⟨_, ⟨⟨data, isData, rfl⟩, ofItem, isTags⟩, _, ⟨⟨setter, isSetter, rfl⟩, bySetter⟩, _,
      ⟨⟨tagging, isTagging, rfl⟩, ofData⟩, _, ⟨⟨tag, isTag, rfl⟩, ofTag⟩, rfl⟩
    rw [itemOf] at ofItem
    exact ⟨⟨data, setter, tagging, tag⟩, rfl, isData, isSetter, isTagging, isTag, ofItem, isTags, bySetter, ofData, ofTag⟩
  · rintro ⟨found, rfl, on⟩
    have ofItem := on.ofItem
    rw [← itemOf found.data] at ofItem
    exact ⟨_, ⟨⟨found.data, on.data, rfl⟩, ofItem, on.isTags⟩, _, ⟨⟨found.setter, on.setter, rfl⟩, on.bySetter⟩, _,
      ⟨⟨found.tagging, on.tagging, rfl⟩, on.ofData⟩, _, ⟨⟨found.tag, on.tag, rfl⟩, on.ofTag⟩, rfl⟩

theorem mem_scopes (ready : Ready context state) (row : Row) (scope : Scope) :
    scope ∈ (filter.matchingItems context state).scopesOf dialect
        (state.bound dialect database.tables) row ↔
      ∃ found : TagRow, scope = scopeOf context row found ∧ found.On database.tables (row.get "item_id") ∧
        found.Passes (spaceLike dialect) filter.matchTags ∧
        ∃ tag ∈ filter.matchTags.tags, found.tag.get "name" = .text tag := by
  have parts : (filter.matchingItems context state).conditions = filter.conditions ∧
      (filter.matchingItems context state).sourceName = context.name := by
    unfold matchingItems addRankColumnExpr
    dsimp only
    split_ifs <;> exact ⟨rfl, rfl⟩
  unfold SelectCore.scopesOf
  rw [List.mem_filter, parts.1, parts.2, mem_joined ready]
  constructor
  · rintro ⟨⟨found, rfl, on⟩, holds⟩
    exact ⟨found, rfl, on, (conditions_hold _ row found).mp holds⟩
  · rintro ⟨found, rfl, on, holds⟩
    exact ⟨⟨found, rfl, on⟩, (conditions_hold _ row found).mpr holds⟩

theorem distinct_count_texts {values : List Value} (texts : ∀ value ∈ values, ∃ text, value = .text text) :
    distinctCount values = values.dedup.length := by
  have kept : values.filter (· ≠ .null) = values := by
    apply List.filter_eq_self.mpr
    intro value member
    obtain ⟨text, rfl⟩ := texts value member
    rfl
  have canonical : values.map Value.canon = values := by
    have same : values.map Value.canon = values.map id := by
      apply List.map_congr_left
      intro value member
      obtain ⟨text, rfl⟩ := texts value member
      rfl
    rw [same, List.map_id]
  unfold distinctCount
  rw [kept, canonical]

variable (dialect) in
theorem count_clause (tables : Tables) (counted : Expr) (wanted : Nat) (group : List Scope) :
    decide ((SelectCore.evalGroup dialect tables
      (equals (.countDistinct counted) (.val (.int wanted))) group).truth = some true) =
    decide (distinctCount (group.map fun member => counted.eval dialect tables [member] member) = wanted) := by
  rw [decide_eq_decide]
  simp only [SelectCore.evalGroup, equals, Expr.eval, Value.truth_of_truth, compare_values_eq_iff, Value.canon_int]
  constructor
  · rintro ⟨-, -, same⟩
    exact Int.ofNat.inj (Value.int.inj same)
  · intro same
    rw [same]
    exact ⟨Value.noConfusion, Value.noConfusion, rfl⟩

/-- The scopes of a row of the context. -/
def tagScopes (dialect : Dialect) (tables : Tables) (filter : MatchTags) (context : CteRef)
    (state : QueryState) (row : Row) : List Scope :=
  (filter.matchingItems context state).scopesOf dialect (state.bound dialect tables) row

variable {row : Row}

theorem scope_attached (ready : Ready context state) (schema : TagSchema database.tables)
    (member : scope ∈ filter.tagScopes dialect database.tables context state row) :
    ∃ tag ∈ filter.matchTags.tags, ∃ setter, scope.get "tags" "name" = .text tag ∧
      scope.get "setters" "name" = .text setter ∧
      filter.matchTags.Attached (spaceLike dialect) database.tables (row.get "item_id") tag setter := by
  obtain ⟨found, rfl, on, passes, tag, isTag, tagName⟩ := (mem_scopes ready row scope).mp member
  obtain ⟨setter, setterName⟩ := schema.setterNames found.setter on.setter
  exact ⟨tag, isTag, setter, tagName, setterName, found, on, passes, tagName, setterName⟩

theorem attached_scope (ready : Ready context state) {tag setter : String} (isTag : tag ∈ filter.matchTags.tags)
    (attached : filter.matchTags.Attached (spaceLike dialect) database.tables (row.get "item_id") tag setter) :
    ∃ scope ∈ filter.tagScopes dialect database.tables context state row,
      scope.get "tags" "name" = .text tag ∧ scope.get "setters" "name" = .text setter := by
  obtain ⟨found, on, passes, tagName, setterName⟩ := attached
  exact ⟨scopeOf context row found,
    (mem_scopes ready row _).mpr ⟨found, rfl, on, passes, tag, isTag, tagName⟩, tagName, setterName⟩

theorem text_injective : Function.Injective Value.text := fun _ _ same => Value.text.inj same

variable (dialect filter) in
theorem names_counted (ready : Ready context state) (schema : TagSchema database.tables) (row : Row) :
    distinctCount ((filter.tagScopes dialect database.tables context state row).map fun scope =>
        scope.get "tags" "name") = filter.matchTags.tags.length ↔
      filter.matchTags.tags.Nodup ∧ ∀ tag ∈ filter.matchTags.tags, ∃ setter,
        filter.matchTags.Attached (spaceLike dialect) database.tables (row.get "item_id") tag setter := by
  have named : ∀ value ∈ (filter.tagScopes dialect database.tables context state row).map
      (fun scope => scope.get "tags" "name"), ∃ tag ∈ filter.matchTags.tags, value = .text tag := by
    intro value member
    obtain ⟨scope, isScope, rfl⟩ := List.mem_map.mp member
    obtain ⟨tag, isTag, _, tagName, _⟩ := scope_attached ready schema isScope
    exact ⟨tag, isTag, tagName⟩
  have covered : (filter.tagScopes dialect database.tables context state row).map
      (fun scope => scope.get "tags" "name") ⊆ filter.matchTags.tags.map .text := by
    intro value member
    obtain ⟨tag, isTag, rfl⟩ := named value member
    exact List.mem_map_of_mem isTag
  rw [distinct_count_texts fun value member => (named value member).imp fun _ both => both.2,
    ← @List.length_map _ _ filter.matchTags.tags Value.text, dedup_length_eq_iff covered,
    List.nodup_map_iff text_injective]
  apply and_congr_right
  intro _
  constructor
  · intro occurs tag isTag
    obtain ⟨scope, member, tagName⟩ := List.mem_map.mp (occurs (List.mem_map_of_mem isTag))
    obtain ⟨other, _, setter, otherName, _, attached⟩ := scope_attached ready schema member
    cases text_injective (otherName.symm.trans tagName)
    exact ⟨setter, attached⟩
  · intro attached value member
    obtain ⟨tag, isTag, rfl⟩ := List.mem_map.mp member
    obtain ⟨setter, onItem⟩ := attached tag isTag
    obtain ⟨scope, isScope, tagName, _⟩ := attached_scope ready isTag onItem
    exact List.mem_map.mpr ⟨scope, isScope, tagName⟩

theorem scope_setter_number (ready : Ready context state) (schema : TagSchema database.tables)
    (member : scope ∈ filter.tagScopes dialect database.tables context state row) :
    ∃ number, scope.get "item_data" "setter_id" = .int number ∧
      scope.table "setters" ∈ database.tables "setters" ∧ scope.get "setters" "id" = .int number := by
  obtain ⟨found, rfl, on, -⟩ := (mem_scopes ready row scope).mp member
  obtain ⟨number, isNumber⟩ := schema.setterIds found.data on.data
  obtain ⟨id, isId⟩ := database.setters.integers found.setter on.setter
  have same := (compare_values_eq_iff.mp on.bySetter).2.2
  rw [isNumber, isId, Value.canon_int, Value.canon_int] at same
  exact ⟨number, isNumber, on.setter, isId.trans same⟩

/-- What is counted of a scope where every setter is required. -/
def setterTag : Expr :=
  .concat (.concat (.column "item_data" "setter_id") (.val (.text "-"))) (.column "tags" "name")

theorem setter_tag_text (dialect : Dialect) (tables : Tables) {number : Int} {tag : String}
    (isNumber : scope.get "item_data" "setter_id" = .int number) (tagName : scope.get "tags" "name" = .text tag) :
    setterTag.eval dialect tables [scope] scope = .text (toString number ++ "-" ++ tag) := by
  simp [setterTag, Expr.eval, isNumber, tagName, Dialect.textOf]

theorem setter_tag_same (ready : Ready context state) (schema : TagSchema database.tables)
    {left right : Scope} (isLeft : left ∈ filter.tagScopes dialect database.tables context state row)
    (isRight : right ∈ filter.tagScopes dialect database.tables context state row) :
    setterTag.eval dialect (state.bound dialect database.tables) [left] left =
        setterTag.eval dialect (state.bound dialect database.tables) [right] right ↔
      (left.get "tags" "name", left.get "setters" "name") =
        (right.get "tags" "name", right.get "setters" "name") := by
  obtain ⟨leftTag, _, _, leftName, _⟩ := scope_attached ready schema isLeft
  obtain ⟨rightTag, _, _, rightName, _⟩ := scope_attached ready schema isRight
  obtain ⟨leftNumber, leftId, leftSetter, leftKey⟩ := scope_setter_number ready schema isLeft
  obtain ⟨rightNumber, rightId, rightSetter, rightKey⟩ := scope_setter_number ready schema isRight
  rw [setter_tag_text dialect _ leftId leftName, setter_tag_text dialect _ rightId rightName, leftName, rightName,
    Prod.mk.injEq, Value.text.injEq, Value.text.injEq]
  constructor
  · intro same
    obtain ⟨numbers, tags⟩ := marked_injective same
    have rows : left.table "setters" = right.table "setters" :=
      List.inj_on_of_nodup_map database.setters.distinct leftSetter rightSetter
        ((leftKey.trans (congrArg Value.int numbers)).trans rightKey.symm)
    refine ⟨tags, ?_⟩
    unfold Scope.get
    rw [rows]
  · rintro ⟨tags, names⟩
    have rows := schema.setterOnce _ leftSetter _ rightSetter names
    have numbers : Value.int leftNumber = .int rightNumber := by
      rw [← leftKey, ← rightKey]
      unfold Scope.get
      rw [rows]
    rw [tags, Value.int.inj numbers]

variable (dialect filter) in
/-- The pairs that are counted are all those of a listed name and a listed setter, once each. -/
theorem pairs_counted (ready : Ready context state) (schema : TagSchema database.tables) (row : Row)
    (tagged : filter.matchTags.tags ≠ []) (bySetters : filter.matchTags.setters ≠ []) :
    distinctCount ((filter.tagScopes dialect database.tables context state row).map fun scope =>
        setterTag.eval dialect (state.bound dialect database.tables) [scope] scope) =
        filter.matchTags.tags.length * filter.matchTags.setters.length ↔
      (filter.matchTags.tags.Nodup ∧ filter.matchTags.setters.Nodup) ∧
        ∀ tag ∈ filter.matchTags.tags, ∀ setter ∈ filter.matchTags.setters,
          filter.matchTags.Attached (spaceLike dialect) database.tables (row.get "item_id") tag setter := by
  let scopes := filter.tagScopes dialect database.tables context state row
  let pair (names : String × String) : Value × Value := (.text names.1, .text names.2)
  have pairInjective : Function.Injective pair := fun left right same =>
    Prod.ext (text_injective (congrArg Prod.fst same)) (text_injective (congrArg Prod.snd same))
  have texts : ∀ value ∈ scopes.map (fun scope =>
      setterTag.eval dialect (state.bound dialect database.tables) [scope] scope), ∃ text, value = .text text := by
    intro value member
    obtain ⟨scope, isScope, rfl⟩ := List.mem_map.mp member
    obtain ⟨tag, _, _, tagName, _⟩ := scope_attached ready schema isScope
    obtain ⟨number, isNumber, _⟩ := scope_setter_number ready schema isScope
    exact ⟨_, setter_tag_text dialect _ isNumber tagName⟩
  have covered : scopes.map (fun scope => (scope.get "tags" "name", scope.get "setters" "name")) ⊆
      (filter.matchTags.tags ×ˢ filter.matchTags.setters).map pair := by
    intro value member
    obtain ⟨scope, isScope, rfl⟩ := List.mem_map.mp member
    obtain ⟨tag, isTag, setter, tagName, setterName, attached⟩ := scope_attached ready schema isScope
    obtain ⟨found, on, passes, _, foundName⟩ := attached
    obtain ⟨listed, isListed, listedName⟩ := passes.bySetter bySetters
    cases text_injective (foundName.symm.trans listedName)
    exact List.mem_map.mpr ⟨(tag, setter), List.mem_product.mpr ⟨isTag, isListed⟩,
      Prod.ext tagName.symm setterName.symm⟩
  have classes := dedup_length_congr scopes fun left isLeft right isRight =>
    setter_tag_same ready schema isLeft isRight
  rw [distinct_count_texts texts, classes, ← List.length_product, ← List.length_map pair,
    dedup_length_eq_iff covered, List.nodup_map_iff pairInjective, product_nodup_iff tagged bySetters]
  apply and_congr_right
  intro _
  constructor
  · intro occurs tag isTag setter isSetter
    have listed : pair (tag, setter) ∈ (filter.matchTags.tags ×ˢ filter.matchTags.setters).map pair :=
      List.mem_map_of_mem (List.mem_product.mpr ⟨isTag, isSetter⟩)
    obtain ⟨scope, member, names⟩ := List.mem_map.mp (occurs listed)
    obtain ⟨otherTag, _, otherSetter, tagName, setterName, attached⟩ := scope_attached ready schema member
    cases text_injective (tagName.symm.trans (congrArg Prod.fst names))
    cases text_injective (setterName.symm.trans (congrArg Prod.snd names))
    exact attached
  · intro attached value member
    obtain ⟨⟨tag, setter⟩, listed, rfl⟩ := List.mem_map.mp member
    obtain ⟨isTag, isSetter⟩ := List.mem_product.mp listed
    obtain ⟨scope, isScope, tagName, setterName⟩ :=
      attached_scope ready isTag (attached tag isTag setter isSetter)
    exact List.mem_map.mpr ⟨scope, isScope, Prod.ext tagName setterName⟩

/-- A row of the context carries the tags when its item has all of them and nothing is listed twice. -/
theorem carries_iff (ready : Ready context state) (schema : TagSchema database.tables)
    (all : filter.matchTags.matchAny = false) (tagged : filter.matchTags.tags ≠ [])
    (bySetters : filter.matchTags.allSettersRequired = true → filter.matchTags.setters ≠ []) (row : Row) :
    filter.carries dialect database.tables context state row = true ↔
      filter.matchTags.Once ∧ filter.matchTags.Means (spaceLike dialect) database.tables (row.get "item_id") := by
  obtain ⟨tag, isTag⟩ := List.exists_mem_of_ne_nil _ tagged
  have having_ : (filter.matchingItems context state).having = filter.having := by
    unfold matchingItems addRankColumnExpr
    dsimp only
    split_ifs <;> rfl
  have unfolded : filter.carries dialect database.tables context state row = true ↔
      filter.tagScopes dialect database.tables context state row ≠ [] ∧
        (filter.having.all fun condition => decide ((SelectCore.evalGroup dialect
          (state.bound dialect database.tables) condition
          (filter.tagScopes dialect database.tables context state row)).truth = some true)) = true := by
    unfold carries SelectCore.contributes
    rw [Bool.and_eq_true, Bool.not_eq_true', List.isEmpty_eq_false_iff, having_]
    rfl
  have present : (∃ setter, filter.matchTags.Attached (spaceLike dialect) database.tables
    (row.get "item_id") tag setter) →
      filter.tagScopes dialect database.tables context state row ≠ [] := by
    rintro ⟨setter, attached⟩
    obtain ⟨scope, isScope, _⟩ := attached_scope ready isTag attached
    exact List.ne_nil_of_mem isScope
  rw [unfolded]
  unfold having TagsArgs.Once TagsArgs.Means
  dsimp only
  rw [all, Bool.false_and, if_neg Bool.false_ne_true, List.all_cons, List.all_nil, Bool.and_true]
  cases required : filter.matchTags.allSettersRequired with
  | false =>
    rw [if_neg Bool.false_ne_true, count_clause dialect, decide_eq_true_iff]
    have counted := names_counted dialect filter ready schema row
    constructor
    · rintro ⟨_, count⟩
      obtain ⟨once, attached⟩ := counted.mp count
      exact ⟨⟨once, nofun⟩, fun tag isTag => ⟨attached tag isTag, nofun⟩⟩
    · rintro ⟨once, means⟩
      exact ⟨present (means tag isTag).1, counted.mpr ⟨once.1, fun tag isTag => (means tag isTag).1⟩⟩
  | true =>
    have someSetter := bySetters required
    obtain ⟨setter, isSetter⟩ := List.exists_mem_of_ne_nil _ someSetter
    have counted := pairs_counted dialect filter ready schema row tagged someSetter
    have clause := count_clause dialect (state.bound dialect database.tables) setterTag
      (filter.matchTags.tags.length * filter.matchTags.setters.length)
      (filter.tagScopes dialect database.tables context state row)
    rw [Int.natCast_mul] at clause
    unfold setterTag at clause counted
    rw [if_pos rfl, clause, decide_eq_true_iff]
    constructor
    · rintro ⟨_, count⟩
      obtain ⟨once, attached⟩ := counted.mp count
      exact ⟨⟨once.1, fun _ => once.2⟩, fun tag isTag =>
        ⟨⟨setter, attached tag isTag setter isSetter⟩, fun _ => attached tag isTag⟩⟩
    · rintro ⟨once, means⟩
      exact ⟨present (means tag isTag).1,
        counted.mpr ⟨⟨once.1, once.2 rfl⟩, fun tag isTag => (means tag isTag).2 rfl⟩⟩

/-- What `Filter.Separates` says of the data: no two texts of items that carry the tags are one data row. -/
theorem separates_iff (ready : Ready context state) (schema : TagSchema database.tables)
    (all : filter.matchTags.matchAny = false) (tagged : filter.matchTags.tags ≠ [])
    (bySetters : filter.matchTags.allSettersRequired = true → filter.matchTags.setters ≠ []) :
    (Filter.matchTags filter).Separates dialect database.tables context state ↔
      (state.itemDataQuery = true → filter.matchTags.Once →
        (state.bound dialect database.tables context.name).Pairwise fun left right =>
          filter.matchTags.Means (spaceLike dialect) database.tables (left.get "item_id") →
          filter.matchTags.Means (spaceLike dialect) database.tables (right.get "item_id") →
          left.get "data_id" ≠ .null → (left.get "data_id").canon ≠ (right.get "data_id").canon) := by
  refine forall_congr' fun texts => ?_
  have column : joinColumn state = "data_id" := if_pos texts
  unfold joinedBy List.Nodup
  rw [List.pairwise_filter, List.pairwise_map, List.pairwise_filter]
  simp only [carries_iff ready schema all tagged bySetters, column, decide_eq_true_iff, ne_eq, Value.canon_eq_null]
  by_cases once : filter.matchTags.Once
  · simp only [once, true_and, forall_true_left]
    refine ⟨fun apart => apart.imp ?_, fun apart => apart.imp ?_⟩
    · intro left right differ leftMeans rightMeans there same
      refine differ leftMeans rightMeans there (fun isNull => there ?_) same
      rw [← Value.canon_eq_null, same, Value.canon_eq_null]
      exact isNull
    · exact fun differ leftMeans rightMeans there _ => differ leftMeans rightMeans there
  · simp [once, List.pairwise_of_forall]

end

end MatchTags

section Contexts

variable {dialect : Dialect} {database : Database} {mode : BuildMode} {entity : EntityType}
  {context cte : CteRef} {state after : QueryState}

theorem begin_same_item (mode : BuildMode) {left right : Row}
    (isLeft : left ∈ beginEntities dialect database mode .text)
    (isRight : right ∈ beginEntities dialect database mode .text)
    (same : left.get "data_id" = right.get "data_id") : left.get "item_id" = right.get "item_id" := by
  have parts {entity : Row} (member : entity ∈ beginEntities dialect database mode .text) :
      ∃ text ∈ database.tables "item_data", ∃ number, entity.get "data_id" = text.get "id" ∧
        entity.get "item_id" = .int number ∧ (text.get "item_id").canon = .int number := by
    rw [begin_texts] at member
    obtain ⟨file, isFile, inFile⟩ := List.mem_flatMap.mp member
    obtain ⟨text, listed, rfl⟩ := List.mem_map.mp inFile
    obtain ⟨isText, joined⟩ := List.mem_filter.mp listed
    obtain ⟨number, isNumber⟩ := (database.file_integers isFile).2
    have ofItem : compareValues .eq (text.get "item_id") (file.get "item_id") = some true := by
      simp only [isTextOf, entityJoin, innerJoin, Expr.holds, Expr.eval, equals, Value.truth_of_truth,
        decide_eq_true_iff, and_truth_eq_true] at joined
      exact joined.1
    have sameItem := (compare_values_eq_iff.mp ofItem).2.2
    rw [isNumber, Value.canon_int] at sameItem
    exact ⟨text, isText, number, rfl, isNumber, sameItem⟩
  obtain ⟨leftText, leftData, leftNumber, leftId, leftItem, leftSame⟩ := parts isLeft
  obtain ⟨rightText, rightData, rightNumber, rightId, rightItem, rightSame⟩ := parts isRight
  have texts : leftText = rightText :=
    List.inj_on_of_nodup_map database.itemData.distinct leftData rightData
      (leftId.symm.trans (same.trans rightId))
  rw [leftItem, rightItem, ← leftSame, ← rightSame, texts]

/-- The column that the tag filter joins on is an integer and tells the item. -/
theorem Contexts.join_column (contexts : Contexts dialect database mode entity context state) {left right : Row}
    (isLeft : left ∈ state.bound dialect database.tables context.name)
    (isRight : right ∈ state.bound dialect database.tables context.name) :
    left.get (MatchTags.joinColumn state) ≠ .null ∧
      ((left.get (MatchTags.joinColumn state)).canon = (right.get (MatchTags.joinColumn state)).canon →
        left.get "item_id" = right.get "item_id") := by
  have is : Entities state (beginEntities dialect database mode entity) := entities_of_grown contexts.grown
  have inside {row : Row} (member : row ∈ state.bound dialect database.tables context.name) :
      row.pick state.stdColumns ∈ beginEntities dialect database mode entity :=
    contexts.inside (List.mem_map_of_mem member)
  have integer {row : Row} (member : row ∈ state.bound dialect database.tables context.name) {column : String}
      (isStd : column ∈ state.stdColumns) : ∃ number, row.get column = .int number := by
    obtain ⟨number, isNumber⟩ := is.integers _ (inside member) column isStd
    rw [Row.get_pick isStd] at isNumber
    exact ⟨number, isNumber⟩
  have isStd := key_columns_std state (MatchTags.join_column_key state)
  have itemStd : "item_id" ∈ state.stdColumns := by simp [QueryState.stdColumns]
  obtain ⟨leftNumber, leftKey⟩ := integer isLeft isStd
  obtain ⟨rightNumber, rightKey⟩ := integer isRight isStd
  rw [leftKey, rightKey, Value.canon_int, Value.canon_int]
  refine ⟨Value.noConfusion, fun same => ?_⟩
  have kind : state.itemDataQuery = decide (entity = .text) := contexts.grown.itemDataQuery
  cases entity with
  | file =>
    have column : MatchTags.joinColumn state = "file_id" := by simp [MatchTags.joinColumn, kind]
    have keys : state.keyColumns = ["file_id"] := by simp [QueryState.keyColumns, kind]
    rw [column] at leftKey rightKey
    have rows : left = right := List.inj_on_of_nodup_map contexts.keys_nodup isLeft isRight (by
      simp [SelectCore.rowKey, keys, leftKey, rightKey, Value.int.inj same])
    rw [rows]
  | text =>
    have column : MatchTags.joinColumn state = "data_id" := by simp [MatchTags.joinColumn, kind]
    rw [column] at leftKey rightKey isStd
    have items := begin_same_item mode (inside isLeft) (inside isRight) (by
      rw [Row.get_pick isStd, Row.get_pick isStd, leftKey, rightKey, same])
    rwa [Row.get_pick itemStd, Row.get_pick itemStd] at items

end Contexts

namespace MatchTags

section

variable {dialect : Dialect} {database : Database} {mode : BuildMode} {entity : EntityType}
  {context cte : CteRef} {state after : QueryState} {filter valid : MatchTags}

/-- A filter that is left out asks for no tag, and one that is kept means what it did before. -/
theorem validate_spec (filter : MatchTags) : (filter.validate = none → filter.matchTags.tags = []) ∧
    ∀ valid, filter.validate = some valid →
      valid.matchTags.tags ≠ [] ∧ valid.sort = filter.sort ∧
      valid.matchTags.matchAny = filter.matchTags.matchAny ∧
      (valid.matchTags.allSettersRequired = true → valid.matchTags.setters ≠ []) ∧
      (valid.matchTags.Once ↔ filter.matchTags.Once) ∧
      ∀ within tables item, valid.matchTags.Means within tables item ↔ filter.matchTags.Means within tables item := by
  unfold validate
  dsimp only
  cases empty : filter.matchTags.tags.isEmpty with
  | true => exact ⟨fun _ => List.isEmpty_iff.mp empty, fun valid isValid => by cases isValid⟩
  | false =>
    have tagged : filter.matchTags.tags ≠ [] := List.isEmpty_eq_false_iff.mp empty
    rw [if_neg Bool.false_ne_true]
    cases required : filter.matchTags.allSettersRequired with
    | false =>
      refine ⟨nofun, fun valid isValid => ?_⟩
      cases isValid
      exact ⟨tagged, rfl, rfl, fun isRequired => absurd (isRequired.symm.trans required) (by decide), Iff.rfl,
        fun _ _ _ => Iff.rfl⟩
    | true =>
      cases noSetter : filter.matchTags.setters.isEmpty with
      | false =>
        refine ⟨nofun, fun valid isValid => ?_⟩
        cases isValid
        exact ⟨tagged, rfl, rfl, fun _ => List.isEmpty_eq_false_iff.mp noSetter, Iff.rfl, fun _ _ _ => Iff.rfl⟩
      | true =>
        have setters := List.isEmpty_iff.mp noSetter
        refine ⟨nofun, fun valid isValid => ?_⟩
        cases isValid
        refine ⟨tagged, rfl, rfl, nofun, ?_, fun within tables item => ?_⟩
        · unfold TagsArgs.Once
          rw [setters]
          exact and_congr_right fun _ => iff_of_true nofun fun _ => List.nodup_nil
        · constructor
          · intro means tag isTag
            obtain ⟨setter, attached⟩ := (means tag isTag).1
            refine ⟨⟨setter, (TagsArgs.attached_any_setter within tables _ item tag setter).mp attached⟩, ?_⟩
            rw [setters]
            exact nofun
          · intro means tag isTag
            obtain ⟨setter, attached⟩ := (means tag isTag).1
            exact ⟨⟨setter, (TagsArgs.attached_any_setter within tables _ item tag setter).mpr attached⟩, nofun⟩

theorem kept_iff_carries (contexts : Contexts dialect database mode entity context state)
    (schema : TagSchema database.tables) (all : filter.matchTags.matchAny = false)
    (tagged : filter.matchTags.tags ≠ [])
    (bySetters : filter.matchTags.allSettersRequired = true → filter.matchTags.setters ≠ [])
    (noBounds : filter.sort.gt = none ∧ filter.sort.lt = none)
    (built : filter.build context state = .ok (cte, after)) {row : Row}
    (member : row ∈ state.bound dialect database.tables context.name) :
    SelectCore.rowKey state.keyColumns row ∈ after.keys dialect database.tables cte ↔
      filter.carries dialect database.tables context state row = true := by
  have ready := contexts.ready
  have joined (other : Row) : (other.get (joinColumn state)).canon ∈
      filter.joinedBy dialect database.tables context state ↔
      other.get (joinColumn state) ≠ .null ∧ ∃ found ∈ state.bound dialect database.tables context.name,
        filter.carries dialect database.tables context state found = true ∧
          (found.get (joinColumn state)).canon = (other.get (joinColumn state)).canon := by
    unfold joinedBy
    rw [List.mem_filter, List.mem_map, decide_eq_true_iff, ne_eq, Value.canon_eq_null, and_comm]
    simp only [List.mem_filter, and_assoc]
  rw [keys_repeated ready contexts.keys_nodup noBounds built, List.mem_flatMap]
  constructor
  · rintro ⟨other, isOther, repeated⟩
    have sameKey := List.eq_of_mem_replicate repeated
    have same : row = other := List.inj_on_of_nodup_map contexts.keys_nodup member isOther sameKey
    subst same
    have times := List.length_pos_of_mem repeated
    rw [List.length_replicate] at times
    obtain ⟨_, found, isFound, carries_, column⟩ := (joined row).mp (List.count_pos_iff.mp times)
    have item := (contexts.join_column isFound member).2 column
    rw [carries_iff ready schema all tagged bySetters] at carries_ ⊢
    rwa [item] at carries_
  · intro carries_
    have stored := (joined row).mpr ⟨(contexts.join_column member member).1, row, member, carries_, rfl⟩
    exact ⟨row, member, List.mem_replicate.mpr ⟨(List.count_pos_iff.mpr stored).ne', rfl⟩⟩

/-- A filter that asks for all of its tags keeps a row exactly when the item has them, unless an
entry of a counted list is repeated and the item has them all the same, or none is and the item has
them in namespaces that are only like those asked for. -/
theorem tags_kept_iff (contexts : Contexts dialect database mode entity context state)
    (schema : TagSchema database.tables) (all : filter.matchTags.matchAny = false)
    (noBounds : filter.sort.gt = none ∧ filter.sort.lt = none) {row : Row}
    (member : row ∈ state.bound dialect database.tables context.name) :
    (filter.validate = none → filter.matchTags.Means spaceUnder database.tables (row.get "item_id")) ∧
    ∀ valid cte after, filter.validate = some valid → valid.build context state = .ok (cte, after) →
      ((SelectCore.rowKey state.keyColumns row ∈ after.keys dialect database.tables cte ↔
          filter.matchTags.Means spaceUnder database.tables (row.get "item_id")) ↔
        (filter.matchTags.Once ∨ ¬filter.matchTags.Means spaceUnder database.tables (row.get "item_id")) ∧
        (filter.matchTags.Once → filter.matchTags.ReadLiterally dialect database.tables (row.get "item_id"))) := by
  obtain ⟨pruned, kept⟩ := validate_spec filter
  constructor
  · intro isPruned tag isTag
    rw [pruned isPruned] at isTag
    cases isTag
  · intro valid cte after isValid built
    obtain ⟨tagged, sorts, any, bySetters, once, means⟩ := kept valid isValid
    rw [kept_iff_carries contexts schema (any.trans all) tagged bySetters (sorts ▸ noBounds) built member,
      carries_iff contexts.ready schema (any.trans all) tagged bySetters, once, means]
    have like_ : filter.matchTags.Means spaceUnder database.tables (row.get "item_id") →
        filter.matchTags.Means (spaceLike dialect) database.tables (row.get "item_id") := fun under =>
      under.of_spaces fun _ _ asked isAsked inside => ⟨asked, isAsked, space_like_of_under dialect inside⟩
    unfold TagsArgs.ReadLiterally
    by_cases isOnce : filter.matchTags.Once <;>
      by_cases has : filter.matchTags.Means spaceUnder database.tables (row.get "item_id") <;> simp [isOnce, has, like_]

end

end MatchTags

theorem tagged_schema : TagSchema taggedTables := by
  constructor
  · simp [taggedTables, Row.get, List.lookup_cons]
  · simp [taggedTables]
  · simp [taggedTables, Row.get, List.lookup_cons]

def twiceFilter : MatchTags := { matchTags := { tags := ["cat", "cat"] } }

theorem cat_on_item (args : TagsArgs) (plain : args.minConfidence = 0 ∧ args.setters = [] ∧ args.namespaces = []) :
    args.Attached spaceUnder taggedTables (.int 1) "cat" "tagger" := by
  refine ⟨⟨[("id", .int 11), ("item_id", .int 1), ("setter_id", .int 1), ("data_type", .text "tags")],
    [("id", .int 1), ("name", .text "tagger")],
    [("item_data_id", .int 11), ("tag_id", .int 1), ("confidence", .int 1)],
    [("id", .int 1), ("name", .text "cat")]⟩, ?_, ?_, rfl, rfl⟩
  · constructor <;> decide
  · exact ⟨fun positive => absurd plain.1 positive.ne', fun some_ => absurd plain.2.1 some_,
      fun some_ => absurd plain.2.2 some_⟩

theorem twice_means : twiceFilter.matchTags.Means spaceUnder taggedTables (.int 1) := by
  intro tag isTag
  have isCat : tag = "cat" := by simpa [twiceFilter] using isTag
  subst isCat
  exact ⟨⟨"tagger", cat_on_item _ ⟨rfl, rfl, rfl⟩⟩, nofun⟩

/-- The first file of the tagged item, as a row of `begin_cte`. -/
def firstFile : Row := [("file_id", .int 1), ("item_id", .int 1)]

theorem first_file_there :
    firstFile ∈ (beginState .results .file).bound (.bare true) taggedTables "begin_cte" := by decide +kernel

/-- The tag is asked for twice, and no file is kept. -/
theorem cat_twice_lost :
    (∃ cte after, twiceFilter.build ⟨"begin_cte"⟩ (beginState .results .file) = .ok (cte, after) ∧
      after.keys (.bare true) taggedTables cte = []) ∧
    ¬∀ (dialect : Dialect) (database : Database) (mode : BuildMode) (entity : EntityType) (context : CteRef)
      (state : QueryState) (filter : MatchTags) (row : Row),
      Contexts dialect database mode entity context state → TagSchema database.tables →
      filter.matchTags.matchAny = false → filter.sort.gt = none ∧ filter.sort.lt = none →
      row ∈ state.bound dialect database.tables context.name →
      ∀ valid cte after, filter.validate = some valid → valid.build context state = .ok (cte, after) →
        (SelectCore.rowKey state.keyColumns row ∈ after.keys dialect database.tables cte ↔
          filter.matchTags.Means spaceUnder database.tables (row.get "item_id")) := by
  have lost : ∃ cte after, twiceFilter.build ⟨"begin_cte"⟩ (beginState .results .file) = .ok (cte, after) ∧
      after.keys (.bare true) taggedTables cte = [] := ⟨_, _, rfl, by decide +kernel⟩
  refine ⟨lost, fun kept => ?_⟩
  obtain ⟨cte, after, built, none_⟩ := lost
  have there := (kept (.bare true) taggedDatabase .results .file ⟨"begin_cte"⟩ (beginState .results .file)
    twiceFilter firstFile begin_contexts tagged_schema rfl ⟨rfl, rfl⟩ first_file_there twiceFilter cte after
    rfl built).mpr twice_means
  rw [show taggedDatabase.tables = taggedTables from rfl, none_] at there
  cases there

/-- Asked for once, it is found. -/
theorem cat_once_kept : ∃ cte after, catFilter.build ⟨"begin_cte"⟩ (beginState .results .file) = .ok (cte, after) ∧
    ((SelectCore.rowKey (beginState .results .file).keyColumns firstFile ∈
        after.keys (.bare true) taggedDatabase.tables cte ↔
        catFilter.matchTags.Means spaceUnder taggedDatabase.tables (firstFile.get "item_id")) ↔
      (catFilter.matchTags.Once ∨
        ¬catFilter.matchTags.Means spaceUnder taggedDatabase.tables (firstFile.get "item_id")) ∧
      (catFilter.matchTags.Once →
        catFilter.matchTags.ReadLiterally (.bare true) taggedDatabase.tables (firstFile.get "item_id"))) := by
  obtain ⟨cte, after, built⟩ : ∃ cte after, catFilter.build ⟨"begin_cte"⟩ (beginState .results .file) =
      .ok (cte, after) := ⟨_, _, rfl⟩
  exact ⟨cte, after, built, (MatchTags.tags_kept_iff begin_contexts tagged_schema rfl ⟨rfl, rfl⟩
    first_file_there).2 catFilter cte after rfl built⟩

end Panoptikon.Pql
