import Panoptikon.Config.TomlDelta

/-!
# When a patch has the effect asked for

A node that is written from a value reads as the value. A patch of a node has
its effect exactly when it has it for every child, and what becomes of a child
is said once for the four kinds of nodes that are patched.
-/

namespace Panoptikon.Config

open Foundation

variable {Scalar : Type}

theorem values_from_toml_map (values : List (Toml Scalar)) : valuesFromToml values = values.map valueFromToml := by
  induction values with
  | nil => rfl
  | cons value rest ih =>
    change valueFromToml value :: valuesFromToml rest = _
    rw [ih, List.map_cons]

theorem get_inline_entries (entries : List (String × Toml Scalar)) (name : String) :
    Entries.get (inlineEntriesFromToml entries) name = (Entries.get entries name).map valueFromToml := by
  induction entries with
  | nil => rfl
  | cons entry rest ih =>
    obtain ⟨key, value⟩ := entry
    change Entries.get ((key, valueFromToml value) :: inlineEntriesFromToml rest) name = _
    rw [Entries.get, Entries.get, ih]
    split_ifs <;> rfl

theorem get_entries_from_toml (entries : List (String × Toml Scalar)) (name : String) :
    Entries.get (entriesFromToml entries) name = (Entries.get entries name).map itemFromToml := by
  induction entries with
  | nil => rfl
  | cons entry rest ih =>
    obtain ⟨key, value⟩ := entry
    change Entries.get ((key, itemFromToml value) :: entriesFromToml rest) name = _
    rw [Entries.get, Entries.get, ih]
    split_ifs <;> rfl

/-- The entries of a value that is known to be a table. -/
def Toml.entries : Toml Scalar → List (String × Toml Scalar)
  | .table entries => entries
  | _ => []

theorem tables_from_toml_map {values : List (Toml Scalar)} (tables : values.all Toml.isTable = true) :
    tablesFromToml values = values.map fun value => entriesFromToml value.entries := by
  induction values with
  | nil => rfl
  | cons value rest ih =>
    rw [List.all_cons, Bool.and_eq_true] at tables
    cases value with
    | table entries =>
      change entriesFromToml entries :: tablesFromToml rest = _
      rw [ih tables.2, List.map_cons, Toml.entries]
    | scalar | array => cases tables.1

variable {value : Toml Scalar}

theorem table_of_is_table (isTable : value.isTable = true) : Toml.table value.entries = value := by
  cases value with
  | table entries => rfl
  | scalar | array => cases isTable

/-- The node is one of the ways in which a value is written; the last is an element of an array of
tables. -/
def Written (node : Item Scalar) (value : Toml Scalar) : Prop :=
  node = itemFromToml value ∨ node = .value (valueFromToml value) ∨
    ∃ entries, value = .table entries ∧ node = .table true (entriesFromToml entries)

theorem tables_from_section {values : List (Toml Scalar)} (isSection : (Toml.array values).isSection = true) :
    values ≠ [] ∧ tablesFromToml values = values.map fun value => entriesFromToml value.entries := by
  unfold Toml.isSection at isSection
  rw [Bool.and_eq_true, Bool.not_eq_true', List.isEmpty_eq_false_iff] at isSection
  exact ⟨isSection.1, tables_from_toml_map isSection.2⟩

/-- A table whose header is left out has something in it that is written under a header. -/
theorem item_from_toml_shows : (value : Toml Scalar) → (itemFromToml value).shows = true
  | .scalar _ => rfl
  | .array values => by
      rw [itemFromToml]
      split
      · rename_i isSection
        obtain ⟨filled, mapped⟩ := tables_from_section isSection
        rw [mapped, Item.shows, List.isEmpty_map, List.isEmpty_eq_false_iff.mpr filled]
        rfl
      · rfl
  | .table [] => rfl
  | .table ((key, first) :: rest) => by
      rw [itemFromToml, Item.shows, entriesFromToml, entriesShow, item_from_toml_shows first, Bool.true_or,
        Bool.or_true]

variable {node : Item Scalar}

theorem Written.head (written : Written node value) : node.head = some value.head := by
  have of_shown (shown : node.shows = true) (kind : node.kind = value.head) : node.head = some value.head := by
    rw [Item.head, if_pos shown, kind]
  rcases written with rfl | rfl | ⟨entries, rfl, rfl⟩
  · apply of_shown (item_from_toml_shows value)
    cases value with
    | scalar | table => rfl
    | array values =>
      rw [itemFromToml]
      split <;> rfl
  · cases value <;> exact of_shown rfl rfl
  · exact of_shown rfl rfl

theorem Written.child (written : Written node value) (step : Step) :
    (node.child step = none ∧ value.child step = none) ∨
      ∃ inner new, node.child step = some inner ∧ value.child step = some new ∧ Written inner new := by
  have of_get (found : Option (Toml Scalar)) (write : Toml Scalar → Item Scalar)
      (isWritten : ∀ new, Written (write new) new) (nodeChild : node.child step = found.map write)
      (valueChild : value.child step = found) :
      (node.child step = none ∧ value.child step = none) ∨
        ∃ inner new, node.child step = some inner ∧ value.child step = some new ∧ Written inner new := by
    cases found with
    | none => exact .inl ⟨nodeChild, valueChild⟩
    | some new => exact .inr ⟨write new, new, nodeChild, valueChild, isWritten new⟩
  have asItem (new : Toml Scalar) : Written (itemFromToml new) new := .inl rfl
  have asValue (new : Toml Scalar) : Written (.value (valueFromToml new)) new := .inr (.inl rfl)
  have asTable (headed : Bool) (entries : List (String × Toml Scalar)) (isNode : node = .table headed
      (entriesFromToml entries)) (isValue : value = .table entries) :
      (node.child step = none ∧ value.child step = none) ∨
        ∃ inner new, node.child step = some inner ∧ value.child step = some new ∧ Written inner new := by
    subst isNode isValue
    cases step with
    | index position => exact .inl ⟨rfl, rfl⟩
    | key name => exact of_get _ _ asItem (get_entries_from_toml entries name) rfl
  rcases written with rfl | rfl | ⟨entries, isValue, isNode⟩
  · cases value with
    | scalar value => cases step <;> exact .inl ⟨rfl, rfl⟩
    | table entries => exact asTable _ entries (itemFromToml.eq_def _) rfl
    | array values =>
      cases step with
      | key name =>
        rw [itemFromToml]
        split <;> exact .inl ⟨rfl, rfl⟩
      | index position =>
        rw [itemFromToml]
        split
        · rename_i isSection
          have child : (Item.arrayOfTables (tablesFromToml values)).child (.index position) =
              values[position]?.map fun value => .table true (entriesFromToml value.entries) := by
            rw [array_of_tables_child, (tables_from_section isSection).2, List.getElem?_map, Option.map_map]
            rfl
          rw [child]
          cases found : values[position]? with
          | none => exact .inl ⟨rfl, found⟩
          | some new =>
            have isTable : new.isTable = true :=
              List.all_eq_true.mp (Bool.and_eq_true_iff.mp isSection).2 new (List.mem_of_getElem? found)
            exact .inr ⟨_, new, rfl, found, .inr (.inr ⟨new.entries, (table_of_is_table isTable).symm, rfl⟩)⟩
        · have child : (Item.value (.array (valuesFromToml values))).child (.index position) =
              values[position]?.map fun value => .value (valueFromToml value) := by
            rw [array_child, values_from_toml_map, List.getElem?_map, Option.map_map]
            rfl
          rw [child]
          cases found : values[position]? with
          | none => exact .inl ⟨rfl, found⟩
          | some new => exact .inr ⟨_, new, rfl, found, asValue new⟩
  · cases value with
    | scalar value => cases step <;> exact .inl ⟨rfl, rfl⟩
    | table entries =>
      cases step with
      | index position => exact .inl ⟨rfl, rfl⟩
      | key name =>
        apply of_get (Entries.get entries name) (fun new => .value (valueFromToml new)) asValue _ rfl
        rw [valueFromToml, inline_table_child, get_inline_entries, Option.map_map]
        rfl
    | array values =>
      cases step with
      | key name => exact .inl ⟨rfl, rfl⟩
      | index position =>
        apply of_get values[position]? (fun new => .value (valueFromToml new)) asValue _ rfl
        rw [valueFromToml, array_child, values_from_toml_map, List.getElem?_map, Option.map_map]
        rfl
  · exact asTable true entries isNode isValue

theorem look_item_none (path : Path) : lookItem (none : Option (Item Scalar)) path = none := by
  induction path with
  | nil => rfl
  | cons step rest ih => exact ih

theorem look_toml_none (path : Path) : lookToml (none : Option (Toml Scalar)) path = none := by
  induction path with
  | nil => rfl
  | cons step rest ih => exact ih

theorem Written.look (written : Written node value) (path : Path) :
    lookItem (some node) path = lookToml (some value) path := by
  induction path generalizing node value with
  | nil => exact written.head
  | cons step rest ih =>
    change lookItem (node.child step) rest = lookToml (value.child step) rest
    rcases written.child step with ⟨noNode, noValue⟩ | ⟨inner, new, isInner, isNew, both⟩
    · rw [noNode, noValue, look_item_none, look_toml_none]
    · rw [isInner, isNew]
      exact ih both

section

variable [BEq Scalar]

variable {after : Option (Toml Scalar)}

omit [BEq Scalar] in
theorem stands_congr {node other : Option (Item Scalar)}
    (alike : ∀ path, lookItem node path = lookItem other path) : Stands after node ↔ Stands after other := by
  unfold Stands
  rw [alike []]
  apply and_congr_right
  intro _
  apply forall_congr'
  intro step
  apply forall_congr'
  intro rest
  rw [alike (step :: rest)]

omit [BEq Scalar] in
theorem look_not_admitted {step : Step} (outside : after.any (·.admits step) = false)
    (rest : Path) : lookToml after (step :: rest) = none := by
  have absent : after.bind (·.child step) = none := by
    cases after with
    | none => rfl
    | some value =>
      rw [Option.any_some] at outside
      cases value with
      | scalar => rfl
      | array values =>
        cases step with
        | key => rfl
        | index position => exact List.getElem?_eq_none (Nat.le_of_not_lt (of_decide_eq_false outside))
      | table entries =>
        cases step with
        | key => cases outside
        | index => rfl
  change lookToml (after.bind (·.child step)) rest = none
  rw [absent, look_toml_none]

omit [BEq Scalar] in
theorem stands_of_put {node : Option (Item Scalar)}
    (written : ∀ path, lookItem node path = lookToml after path) : Stands after node := by
  apply And.intro (written [])
  intro step rest outside
  rw [written, look_not_admitted outside]

variable {before after : Option (Toml Scalar)}

/-- The effect depends on what the document and the result have on their paths. -/
theorem told_congr {document result other : Option (Item Scalar)}
    (alike : ∀ path, lookItem result path = lookItem other path) (path : Path) :
    Told before after document result path ↔ Told before after document other path := by
  induction path generalizing before after document result other with
  | nil =>
    unfold Told
    split_ifs
    · exact stands_congr alike
    · apply forall_congr'
      intro path
      rw [alike path]
  | cons step rest ih =>
    unfold Told
    apply imp_congr_right
    intro _
    apply imp_congr_right
    intro _
    exact ih fun path => alike (step :: path)

/-- A result that reads as the new value has the effect where the new value fits. -/
theorem told_of_put {document result : Option (Item Scalar)}
    (written : ∀ path, lookItem result path = lookToml after path) (path : Path) :
    Told before after document result path ↔ Fits before after document path := by
  induction path generalizing before after document result with
  | nil =>
    unfold Told Fits
    cases differs : changed before after with
    | true => exact iff_of_true (stands_of_put written) fun same => absurd same (by decide)
    | false =>
      rw [if_neg Bool.false_ne_true, imp_iff_right (rfl : false = false)]
      apply forall_congr'
      intro path
      rw [written path]
  | cons step rest ih =>
    unfold Told Fits
    apply imp_congr_right
    intro _
    apply imp_congr_right
    intro _
    exact ih fun path => written (step :: path)

theorem told_of_left {document : Option (Item Scalar)} (path : Path) :
    Told before after document document path ↔ Done before after document path := by
  induction path generalizing before after document with
  | nil =>
    unfold Told Done
    cases differs : changed before after with
    | true => rw [if_pos rfl, imp_iff_right (rfl : true = true)]
    | false => exact iff_of_true (fun _ => rfl) fun same => absurd same (by decide)
  | cons step rest ih =>
    unfold Told Done
    apply imp_congr_right
    intro _
    apply imp_congr_right
    intro _
    exact ih

/-- What a patch makes of a child of a node that it patches. -/
inductive Becomes : Step → Option (Item Scalar) → Option (Toml Scalar) → Option (Toml Scalar) →
    Option (Item Scalar) → Prop where
  | removed (step : Step) (node : Option (Item Scalar)) (old : Toml Scalar) : Becomes step node (some old) none none
  | unknown (step : Step) (node : Option (Item Scalar)) : Becomes step node none none node
  | equal (step : Step) (node : Option (Item Scalar)) (old new : Toml Scalar) (same : old.same new = true)
      (place : node = none → ∃ name, step = .key name) : Becomes step node (some old) (some new) node
  | patched (step : Step) (node : Item Scalar) (old new : Toml Scalar) (result : Item Scalar)
      (differs : old.same new = false)
      (alike : ∀ path, lookItem (some result) path = lookItem (some (patchItem node old new)) path) :
      Becomes step (some node) (some old) (some new) (some result)
  | put (step : Step) (node : Option (Item Scalar)) (old : Option (Toml Scalar)) (new : Toml Scalar)
      (result : Item Scalar) (written : Written result new)
      (place : (∃ name, step = .key name ∧ changed old (some new) = true ∧ (node = none ∨ old = none)) ∨
        ∃ position, step = .index position ∧ node = none) : Becomes step node old (some new) (some result)
  | passed (position : Nat) (node : Item Scalar) (new : Toml Scalar) :
      Becomes (.index position) (some node) none (some new) (some node)

/-- A child has its effect when its patch has it, when it fits, or when it is done. -/
theorem Becomes.told {step : Step} {node : Option (Item Scalar)} {old new : Option (Toml Scalar)}
    {result : Option (Item Scalar)} (becomes : Becomes step node old new result) :
    (∀ path, Told old new node result path) ↔ ∀ value, new = some value →
      childClean (fun item before after => ∀ path, Told (some before) (some after) (some item)
        (some (patchItem item before after)) path) step node old value := by
  cases becomes with
  | removed step node old =>
    apply iff_of_true _ fun _ isNone => by cases isNone
    intro path
    cases path with
    | nil => exact stands_of_put fun path => (look_item_none path).trans (look_toml_none path).symm
    | cons step rest => exact fun _ admitted => by cases admitted
  | unknown step node =>
    apply iff_of_true _ fun _ isNone => by cases isNone
    intro path
    cases path with
    | nil => exact fun _ => rfl
    | cons step rest => exact fun differs => by cases differs
  | equal step node old new same place =>
    have unchanged_ : changed (some old) (some new) = false := by
      rw [changed_some, same]
      rfl
    apply iff_of_true
    · intro path
      cases path with
      | nil =>
        unfold Told
        rw [unchanged_]
        exact fun _ => rfl
      | cons step rest =>
        intro differs
        rw [unchanged_] at differs
        cases differs
    · rintro value isNew
      cases isNew
      cases node with
      | some item =>
        intro differs
        rw [same] at differs
        cases differs
      | none =>
        obtain ⟨name, rfl⟩ := place rfl
        intro differs
        rw [unchanged_] at differs
        cases differs
  | patched step item before after result differs alike =>
    constructor
    · rintro told value isNew -
      cases isNew
      exact fun path => (told_congr alike path).mp (told path)
    · intro clean path
      exact (told_congr alike path).mpr (clean after rfl differs path)
  | put step node old new result written place =>
    have fits (path : Path) : Told old (some new) node (some result) path ↔ Fits old (some new) node path :=
      told_of_put written.look path
    rw [forall_congr' fits]
    rcases place with ⟨name, rfl, differs, absent⟩ | ⟨position, rfl, rfl⟩
    · have shape (inner : Item Scalar → Toml Scalar → Toml Scalar → Prop) :
          childClean inner (.key name) node old new ↔ ∀ path, Fits old (some new) node path := by
        rcases absent with rfl | rfl
        · exact imp_iff_right differs
        · cases node <;> exact imp_iff_right differs
      constructor
      · rintro all value isNew
        cases isNew
        exact (shape _).mpr all
      · intro clean
        exact (shape _).mp (clean new rfl)
    · constructor
      · rintro all value isNew
        cases isNew
        cases old <;> exact all
      · intro clean
        have all := clean new rfl
        cases old <;> exact all
  | passed position item new =>
    have done (path : Path) : Told none (some new) (some item) (some item) path ↔
        Done none (some new) (some item) path := told_of_left path
    rw [forall_congr' done]
    constructor
    · rintro all value isNew
      cases isNew
      exact all
    · intro clean
      exact clean new rfl

end

end Panoptikon.Config
