import Panoptikon.Foundation.Entries

/-!
# Patching a TOML document

A document is the tree of its spelling: tables, inline tables, arrays and
arrays of tables, without its decoration. Two values of the typed
configuration are compared, and only what differs between them is changed in
the tree. A table of dotted keys, or one that only the headers below it name, has no
header of its own, and nothing is written for it when nothing is in it.
-/

namespace Panoptikon.Config

open Foundation

/-- `toml::Value`; a scalar is what is neither an array nor a table. -/
inductive Toml (Scalar : Type) where
  | scalar (value : Scalar)
  | array (values : List (Toml Scalar))
  | table (entries : List (String × Toml Scalar))

/-- `toml_edit::Value`; an inline table of dotted keys has no braces of its own. -/
inductive InlineValue (Scalar : Type) where
  | scalar (value : Scalar)
  | array (values : List (InlineValue Scalar))
  | inlineTable (headed : Bool) (entries : List (String × InlineValue Scalar))

/-- `toml_edit::Item`; a table without a header of its own is implicit or dotted. -/
inductive Item (Scalar : Type) where
  | value (value : InlineValue Scalar)
  | table (headed : Bool) (entries : List (String × Item Scalar))
  | arrayOfTables (tables : List (List (String × Item Scalar)))

variable {Scalar : Type}

namespace Toml

def isTable : Toml Scalar → Bool
  | .table _ => true
  | _ => false

/-- The value is written under headers: a table, or an array of nothing but tables. -/
def isSection : Toml Scalar → Bool
  | .table _ => true
  | .array values => !values.isEmpty && values.all isTable
  | .scalar _ => false

section

variable [BEq Scalar]

mutual

/-- `PartialEq::eq` -/
def same : Toml Scalar → Toml Scalar → Bool
  | .scalar left, .scalar right => left == right
  | .array left, .array right => sameValues left right
  | .table left, .table right => left.length == right.length && sameEntries left right
  | _, _ => false

def sameValues : List (Toml Scalar) → List (Toml Scalar) → Bool
  | [], [] => true
  | left :: lefts, right :: rights => left.same right && sameValues lefts rights
  | _, _ => false

def sameEntries : List (String × Toml Scalar) → List (String × Toml Scalar) → Bool
  | [], _ => true
  | (key, left) :: lefts, rights =>
      (match Entries.get rights key with
        | some right => left.same right
        | none => false) && sameEntries lefts rights

end

end

end Toml

mutual

/-- `value_from_toml` -/
def valueFromToml : Toml Scalar → InlineValue Scalar
  | .scalar value => .scalar value
  | .array values => .array (valuesFromToml values)
  | .table entries => .inlineTable true (inlineEntriesFromToml entries)

def valuesFromToml : List (Toml Scalar) → List (InlineValue Scalar)
  | [] => []
  | value :: rest => valueFromToml value :: valuesFromToml rest

def inlineEntriesFromToml : List (String × Toml Scalar) → List (String × InlineValue Scalar)
  | [] => []
  | (key, value) :: rest => (key, valueFromToml value) :: inlineEntriesFromToml rest

end

mutual

/-- `item_from_toml`: a table is written with a header, which is left out where all that is in it has
headers, and an array of nothing but tables as an array of tables. -/
def itemFromToml : Toml Scalar → Item Scalar
  | .scalar value => .value (.scalar value)
  | .array values =>
      if (Toml.array values).isSection then .arrayOfTables (tablesFromToml values)
      else .value (.array (valuesFromToml values))
  | .table entries =>
      .table (entries.isEmpty || entries.any fun entry => !entry.2.isSection) (entriesFromToml entries)

/-- `table_from_toml`, of values that are all tables -/
def tablesFromToml : List (Toml Scalar) → List (List (String × Item Scalar))
  | [] => []
  | .table entries :: rest => entriesFromToml entries :: tablesFromToml rest
  | _ :: rest => tablesFromToml rest

def entriesFromToml : List (String × Toml Scalar) → List (String × Item Scalar)
  | [] => []
  | (key, value) :: rest => (key, itemFromToml value) :: entriesFromToml rest

end

/-- Removes the keys of `before` that `after` does not have. -/
def dropMissing {Node : Type} (before after : List (String × Toml Scalar)) (concrete : List (String × Node)) :
    List (String × Node) :=
  ((before.map Prod.fst).filter fun key => (Entries.get after key).isNone).foldl Entries.remove concrete

/-- `old_value == Some(new_value)` -/
def unchanged [BEq Scalar] : Option (Toml Scalar) → Toml Scalar → Bool
  | some before, after => before.same after
  | none, _ => false

section

variable [BEq Scalar]

mutual

def patchValue : InlineValue Scalar → Toml Scalar → Toml Scalar → InlineValue Scalar
  | .inlineTable headed concrete, .table before, .table after =>
      .inlineTable headed (patchInlineEntries before (dropMissing before after concrete) after)
  | .array concrete, .array before, .array after =>
      -- patch_array: what is too long is removed, what is too short is filled up
      let left := (patchShared concrete before after).take after.length
      .array (left ++ valuesFromToml (after.drop left.length))
  | _, _, after => valueFromToml after

/-- The loop of `patch_inline_table` over `after` -/
def patchInlineEntries (before : List (String × Toml Scalar)) :
    List (String × InlineValue Scalar) → List (String × Toml Scalar) → List (String × InlineValue Scalar)
  | concrete, [] => concrete
  | concrete, (key, new) :: rest =>
      let concrete :=
        if unchanged (Entries.get before key) new then concrete
        else
          match Entries.get concrete key, Entries.get before key with
          | some value, some old => Entries.set concrete key (patchValue value old new)
          | _, _ => Entries.set concrete key (valueFromToml new)
      patchInlineEntries before concrete rest

/-- The loop of `patch_array` over the shared indices -/
def patchShared : List (InlineValue Scalar) → List (Toml Scalar) → List (Toml Scalar) → List (InlineValue Scalar)
  | value :: values, old :: olds, new :: news =>
      (if old.same new then value else patchValue value old new) :: patchShared values olds news
  | values, _, _ => values

end

mutual

def patchItem : Item Scalar → Toml Scalar → Toml Scalar → Item Scalar
  | .table headed concrete, .table before, .table after =>
      .table headed (patchEntries before (dropMissing before after concrete) after)
  | .value (.inlineTable headed concrete), .table before, .table after =>
      .value (.inlineTable headed (patchInlineEntries before (dropMissing before after concrete) after))
  | .value (.array concrete), .array before, .array after =>
      .value (patchValue (.array concrete) (.array before) (.array after))
  | .arrayOfTables concrete, .array before, .array after =>
      if before.all Toml.isTable && after.all Toml.isTable then
        -- patch_array_of_tables
        let left := (patchTables concrete before after).take after.length
        .arrayOfTables (left ++ tablesFromToml (after.drop left.length))
      else itemFromToml (.array after)
  | _, _, after => itemFromToml after

/-- The loop of `patch_table` over `after` -/
def patchEntries (before : List (String × Toml Scalar)) :
    List (String × Item Scalar) → List (String × Toml Scalar) → List (String × Item Scalar)
  | concrete, [] => concrete
  | concrete, (key, new) :: rest =>
      let concrete :=
        if unchanged (Entries.get before key) new then concrete
        else
          match Entries.get concrete key, Entries.get before key with
          | some item, some old => Entries.set concrete key (patchItem item old new)
          | _, _ => Entries.set concrete key (itemFromToml new)
      patchEntries before concrete rest

/-- The loop of `patch_array_of_tables` over the shared indices -/
def patchTables : List (List (String × Item Scalar)) → List (Toml Scalar) → List (Toml Scalar) →
    List (List (String × Item Scalar))
  | table :: tables, .table before :: olds, .table after :: news =>
      (if Toml.same (.table before) (.table after) then table
        else patchEntries before (dropMissing before after table) after) :: patchTables tables olds news
  | tables, _, _ => tables

end

end

end Panoptikon.Config
