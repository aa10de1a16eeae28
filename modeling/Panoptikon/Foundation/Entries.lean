import Mathlib.Data.List.Nodup

/-!
# Tables of entries

A table is a list of keys with their values, in an order that is kept: a key
that is there is given its new value where it stands, a new one comes last.
-/

namespace Foundation

abbrev Entries (Key Value : Type) := List (Key × Value)

namespace Entries

variable {Key Value : Type} [DecidableEq Key]

/-- The value of the first entry with the key. -/
def get : Entries Key Value → Key → Option Value
  | [], _ => none
  | (name, value) :: rest, key => if name = key then some value else get rest key

def set : Entries Key Value → Key → Value → Entries Key Value
  | [], key, value => [(key, value)]
  | (name, old) :: rest, key, value =>
      if name = key then (key, value) :: rest else (name, old) :: set rest key value

def remove (entries : Entries Key Value) (key : Key) : Entries Key Value :=
  entries.filter fun entry => entry.1 ≠ key

theorem get_cons (name : Key) (value : Value) (rest : Entries Key Value) (key : Key) :
    get ((name, value) :: rest) key = if name = key then some value else get rest key := rfl

variable (entries : Entries Key Value)

variable {entries : Entries Key Value} {key : Key}

variable {value : Value}

theorem mem_of_get (found : entries.get key = some value) : (key, value) ∈ entries := by
  induction entries with
  | nil => cases found
  | cons entry rest ih =>
    obtain ⟨name, old⟩ := entry
    rw [get_cons] at found
    split at found
    · rename_i here
      cases found
      rw [here]
      exact List.mem_cons_self
    · exact List.mem_cons_of_mem _ (ih found)

section Update

variable {New : Type} (change : Key → New → Option Value → Option Value)

/-- Every new entry may set the value of its key. -/
def updateAll (entries : Entries Key Value) (news : Entries Key New) : Entries Key Value :=
  news.foldl (fun entries new =>
    match change new.1 new.2 (entries.get new.1) with
    | some value => entries.set new.1 value
    | none => entries) entries

theorem update_all_nil : updateAll change entries [] = entries := rfl

end Update

end Entries

section Shared

variable {Old New Node : Type} (change : Node → Old → New → Node)

end Shared

end Foundation
