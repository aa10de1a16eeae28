import Panoptikon.Config.TomlPatch

/-!
# What a patch does to the paths of a document

A document and a typed value are compared path by path. A patch is to change
the paths on which the two typed values differ, and no others.
-/

namespace Panoptikon.Config

open Foundation

variable {Scalar : Type}

inductive Step where
  | key (name : String)
  | index (position : Nat)

abbrev Path := List Step

/-- What stands on a path, without what stands below it. -/
inductive Head (Scalar : Type) where
  | scalar (value : Scalar)
  | array
  | table

def Toml.head : Toml Scalar → Head Scalar
  | .scalar value => .scalar value
  | .array _ => .array
  | .table _ => .table

def Toml.child : Toml Scalar → Step → Option (Toml Scalar)
  | .table entries, .key name => Entries.get entries name
  | .array values, .index position => values[position]?
  | _, _ => none

mutual

/-- The value leaves something in the file. -/
def InlineValue.shows : InlineValue Scalar → Bool
  | .inlineTable headed entries => headed || inlineEntriesShow entries
  | .scalar _ | .array _ => true

def inlineEntriesShow : List (String × InlineValue Scalar) → Bool
  | [] => false
  | (_, value) :: rest => value.shows || inlineEntriesShow rest

end

mutual

/-- A table without a header is written as what is in it, and an array of tables table by table. -/
def Item.shows : Item Scalar → Bool
  | .value value => value.shows
  | .table headed entries => headed || entriesShow entries
  | .arrayOfTables tables => !tables.isEmpty

def entriesShow : List (String × Item Scalar) → Bool
  | [] => false
  | (_, item) :: rest => item.shows || entriesShow rest

end

def Item.kind : Item Scalar → Head Scalar
  | .value (.scalar content) => .scalar content
  | .value (.array _) | .arrayOfTables _ => .array
  | .value (.inlineTable _ _) | .table _ _ => .table

def Item.head (item : Item Scalar) : Option (Head Scalar) := if item.shows then some item.kind else none

def Item.child : Item Scalar → Step → Option (Item Scalar)
  | .table _ entries, .key name => Entries.get entries name
  | .value (.inlineTable _ entries), .key name => (Entries.get entries name).map .value
  | .value (.array values), .index position => values[position]?.map .value
  | .arrayOfTables tables, .index position => tables[position]?.map (.table true)
  | _, _ => none

theorem inline_table_child (headed : Bool) (entries : List (String × InlineValue Scalar)) (name : String) :
    (Item.value (.inlineTable headed entries)).child (.key name) = (Entries.get entries name).map .value := rfl

theorem array_child (values : List (InlineValue Scalar)) (position : Nat) :
    (Item.value (.array values)).child (.index position) = values[position]?.map .value := rfl

theorem array_of_tables_child (tables : List (List (String × Item Scalar))) (position : Nat) :
    (Item.arrayOfTables tables).child (.index position) = tables[position]?.map (.table true) := rfl

def lookToml : Option (Toml Scalar) → Path → Option (Head Scalar)
  | value, [] => value.map Toml.head
  | value, step :: rest => lookToml (value.bind (·.child step)) rest

def lookItem : Option (Item Scalar) → Path → Option (Head Scalar)
  | item, [] => item.bind Item.head
  | item, step :: rest => lookItem (item.bind (·.child step)) rest

section

variable [BEq Scalar]

/-- The typed values differ, or one of them is absent. -/
def changed : Option (Toml Scalar) → Option (Toml Scalar) → Bool
  | some before, some after => !before.same after
  | none, none => false
  | _, _ => true

theorem changed_some (before after : Toml Scalar) : changed (some before) (some after) = !before.same after := rfl

/-- The step leads to a path that can exist beside the new value: any key of a table, and the
indices of an array. -/
def Toml.admits : Toml Scalar → Step → Bool
  | .table _, .key _ => true
  | .array values, .index position => decide (position < values.length)
  | _, _ => false

/-- The new value stands at the node, and nothing is below it for which the value has no place. -/
def Stands (after : Option (Toml Scalar)) (node : Option (Item Scalar)) : Prop :=
  lookItem node [] = lookToml after [] ∧
    ∀ step rest, after.any (·.admits step) = false → lookItem node (step :: rest) = none

/-- On the path the result is the new value where the typed values differ, and what the document
had where they do not. -/
def Told (before after : Option (Toml Scalar)) (document result : Option (Item Scalar)) : Path → Prop
  | [] =>
      if changed before after then Stands after result
      else ∀ path, lookItem result path = lookItem document path
  | step :: rest =>
      changed before after = true → after.any (·.admits step) = true →
        Told (before.bind (·.child step)) (after.bind (·.child step)) (document.bind (·.child step))
          (result.bind (·.child step)) rest

/-- The new value may be put in place of what the document has: where the delta leaves a path of
it alone, the document has the same. -/
def Fits (before after : Option (Toml Scalar)) (document : Option (Item Scalar)) : Path → Prop
  | [] => changed before after = false → ∀ path, lookToml after path = lookItem document path
  | step :: rest =>
      changed before after = true → after.any (·.admits step) = true →
        Fits (before.bind (·.child step)) (after.bind (·.child step)) (document.bind (·.child step)) rest

/-- What the document has may be left: where the delta changes a path, the document has the new
value there. -/
def Done (before after : Option (Toml Scalar)) (document : Option (Item Scalar)) : Path → Prop
  | [] => changed before after = true → Stands after document
  | step :: rest =>
      changed before after = true → after.any (·.admits step) = true →
        Done (before.bind (·.child step)) (after.bind (·.child step)) (document.bind (·.child step)) rest

/-- Some key is given a value, or the file shows something at one that the delta leaves alone. -/
def keepsChild {Node : Type} (shows : Node → Bool) (concrete : List (String × Node))
    (before after : List (String × Toml Scalar)) : Prop :=
  ∃ name, if changed (Entries.get before name) (Entries.get after name) then Entries.get after name ≠ none
    else ∃ node, (name, node) ∈ concrete ∧ shows node = true

/-- What is patched stays in the file: an array of tables is not emptied, and something is left in a
table without a header. -/
def stays : Item Scalar → Toml Scalar → Toml Scalar → Prop
  | .arrayOfTables _, _, .array after => after ≠ []
  | .table false concrete, .table before, .table after => keepsChild Item.shows concrete before after
  | .value (.inlineTable false concrete), .table before, .table after =>
      keepsChild InlineValue.shows concrete before after
  | _, _, _ => True

/-- What a patch needs of a child of a node it patches: one that is patched is clean, one that is
put whole fits, and one that the patch passes by is done. -/
def childClean (inner : Item Scalar → Toml Scalar → Toml Scalar → Prop) (step : Step)
    (node : Option (Item Scalar)) (old : Option (Toml Scalar)) (new : Toml Scalar) : Prop :=
  match step, node, old with
  | _, some item, some before => before.same new = false → inner item before new
  | .key _, _, _ => changed old (some new) = true → ∀ path, Fits old (some new) node path
  | .index _, some _, none => ∀ path, Done none (some new) node path
  | .index _, none, _ => ∀ path, Fits old (some new) none path

end

/-- Every table of the value has distinct keys. -/
inductive Toml.Distinct : Toml Scalar → Prop where
  | scalar (value : Scalar) : Distinct (.scalar value)
  | array (values : List (Toml Scalar)) (inner : ∀ value ∈ values, Distinct value) : Distinct (.array values)
  | table (entries : List (String × Toml Scalar)) (keys : (entries.map Prod.fst).Nodup)
      (inner : ∀ entry ∈ entries, Distinct entry.2) : Distinct (.table entries)

/-- `toml::Table` -/
structure TomlTable (Scalar : Type) where
  entries : List (String × Toml Scalar)
  distinct : (Toml.table entries).Distinct

/-- The document and the old value agree on the paths that both have. -/
def Agrees (document : List (String × Item Scalar)) (before : TomlTable Scalar) : Prop :=
  ∀ path found old, lookItem (some (.table true document)) path = some found →
    lookToml (some (.table before.entries)) path = some old → found = old

section

variable [BEq Scalar]

end

end Panoptikon.Config
