import Panoptikon.Config.Dotenv

/-!
# Two readers of the environment file

The server writes the assignments of `.env` into its own environment, each unless the
variable is there; the snapshot for workers collects them into a map. The first
assignment of a name counts for one and the last one for the other.
-/

namespace Panoptikon.Config

open Foundation

/-- Variables and their values. -/
abbrev Environment := Text → Option Text

namespace Environment

def empty : Environment := fun _ => none

def insert (environment : Environment) (key value : Text) : Environment :=
  fun name => if name = key then some value else environment name

/-- `HashMap::extend` with a list, the last of a name's values winning. -/
def extend (environment : Environment) (entries : List (Text × Text)) : Environment :=
  entries.foldl (fun map entry => map.insert entry.1 entry.2) environment

/-- `HashMap::extend` with a map. -/
def extendWith (environment other : Environment) : Environment := fun name => (other name).or (environment name)

/-- `std::env::set_var`, which panics when the value holds a NUL. -/
def setVar (environment : Environment) (key value : Text) : Option Environment :=
  if List.elem '\x00' value then none else some (environment.insert key value)

end Environment

/-- A turn of the loop over the assignments. -/
def loadAssignment (environment : Environment) (entry : Text × Text) : Option Environment :=
  if (environment entry.1).isNone then environment.setVar entry.1 entry.2 else some environment

/-- The process environment after the file is loaded, if there is one; a panic is no environment. -/
def loadProcessDotenv (file : Option Text) (inherited : Environment) : Option Environment :=
  match file with
  | none => some inherited
  | some source => (parseDotenv source).values.foldlM loadAssignment inherited

/-- `EnvironmentSnapshot::current` -/
def currentSnapshot (desktopManaged : Bool) (file : Option Text) (inherited : Environment) : Environment :=
  let dotenv :=
    match file with
    | none => Environment.empty
    | some source => Environment.empty.extend (parseDotenv source).values
  if desktopManaged then inherited.extendWith dotenv else dotenv.extendWith inherited

/-- The values assigned to a name, in file order. -/
def assignedTo (name : Text) (entries : List (Text × Text)) : List Text :=
  (entries.filter fun entry => entry.1 = name).map Prod.snd

theorem assigned_to_cons (name : Text) (entry : Text × Text) (rest : List (Text × Text)) :
    assignedTo name (entry :: rest) =
      if entry.1 = name then entry.2 :: assignedTo name rest else assignedTo name rest := by
  unfold assignedTo
  rw [List.filter_cons]
  by_cases same : entry.1 = name
  · rw [if_pos (decide_eq_true same), if_pos same, List.map_cons]
  · rw [if_neg (by rw [decide_eq_true_iff]; exact same), if_neg same]

theorem extend_get (environment : Environment) (entries : List (Text × Text)) (name : Text) :
    environment.extend entries name = ((assignedTo name entries).getLast?).or (environment name) := by
  unfold Environment.extend
  induction entries generalizing environment with
  | nil => rfl
  | cons entry rest ih =>
    rw [List.foldl_cons, ih, assigned_to_cons, Environment.insert]
    by_cases same : entry.1 = name
    · rw [if_pos same.symm, if_pos same, List.getLast?_cons]
      cases (assignedTo name rest).getLast? with
      | none | some => rfl
    · rw [if_neg (Ne.symm same), if_neg same]

theorem snapshot_get (source : Text) (inherited : Environment) (name : Text) :
    currentSnapshot false (some source) inherited name =
      (inherited name).or (assignedTo name (parseDotenv source).values).getLast? := by
  unfold currentSnapshot Environment.extendWith
  dsimp only
  rw [if_neg Bool.false_ne_true, extend_get]
  apply congrArg ((inherited name).or ·)
  exact Option.or_none

/-- No name that is not there yet is first given a value with a NUL. -/
def Settable (environment : Environment) (entries : List (Text × Text)) : Prop :=
  ∀ name value, environment name = none → (assignedTo name entries).head? = some value → '\x00' ∉ value

theorem load_assignments (environment : Environment) (entries : List (Text × Text)) :
    (Settable environment entries ∧ ∃ loaded, entries.foldlM loadAssignment environment = some loaded ∧
        ∀ name, loaded name = (environment name).or (assignedTo name entries).head?) ∨
      (¬Settable environment entries ∧ entries.foldlM loadAssignment environment = none) := by
  induction entries generalizing environment with
  | nil =>
    refine .inl ⟨?_, environment, rfl, ?_⟩
    · intro name value _ absent
      cases absent
    · intro name
      exact Option.or_none.symm
  | cons entry rest ih =>
    cases there : environment entry.1 with
    | some value =>
      have kept : loadAssignment environment entry = some environment := by
        rw [loadAssignment, there]
        rfl
      have same : Settable environment (entry :: rest) ↔ Settable environment rest := by
        apply forall_congr'
        intro name
        apply forall_congr'
        intro value
        apply imp_congr_right
        intro missing
        have differ : entry.1 ≠ name := by
          rintro rfl
          rw [there] at missing
          cases missing
        rw [assigned_to_cons, if_neg differ]
      rw [List.foldlM_cons, kept, Option.bind_eq_bind, Option.bind_some, same]
      rcases ih environment with ⟨settable, loaded, isLoaded, gets⟩ | failed
      · refine .inl ⟨settable, loaded, isLoaded, ?_⟩
        intro name
        rw [gets, assigned_to_cons]
        by_cases isName : entry.1 = name
        · rw [if_pos isName, ← isName, there]
          rfl
        · rw [if_neg isName]
      · exact .inr failed
    | none =>
      by_cases holdsNul : '\x00' ∈ entry.2
      · have panics : loadAssignment environment entry = none := by
          rw [loadAssignment, there]
          exact if_pos (List.elem_iff.mpr holdsNul)
        refine .inr ⟨?_, by rw [List.foldlM_cons, panics]; rfl⟩
        intro settable
        refine settable entry.1 entry.2 there ?_ holdsNul
        rw [assigned_to_cons, if_pos rfl, List.head?_cons]
      · have set_ : loadAssignment environment entry = some (environment.insert entry.1 entry.2) := by
          rw [loadAssignment, there]
          exact if_neg fun isElem => holdsNul (List.elem_iff.mp isElem)
        have same : Settable environment (entry :: rest) ↔ Settable (environment.insert entry.1 entry.2) rest := by
          constructor
          · intro settable name value missing isHead
            rw [Environment.insert] at missing
            split at missing
            · cases missing
            · rename_i differ
              refine settable name value missing ?_
              rw [assigned_to_cons, if_neg (Ne.symm differ)]
              exact isHead
          · intro settable name value missing isHead
            rw [assigned_to_cons] at isHead
            split at isHead
            · rw [← Option.some.inj isHead]
              exact holdsNul
            · rename_i differ
              refine settable name value ?_ isHead
              rw [Environment.insert, if_neg (Ne.symm differ)]
              exact missing
        rw [List.foldlM_cons, set_, Option.bind_eq_bind, Option.bind_some, same]
        rcases ih (environment.insert entry.1 entry.2) with ⟨settable, loaded, isLoaded, gets⟩ | failed
        · refine .inl ⟨settable, loaded, isLoaded, ?_⟩
          intro name
          rw [gets, assigned_to_cons, Environment.insert]
          by_cases isName : entry.1 = name
          · rw [if_pos isName.symm, if_pos isName, ← isName, there]
            rfl
          · rw [if_neg (Ne.symm isName), if_neg isName]
        · exact .inr failed

/-- The process environment after loading is what the snapshot reports. -/
def ReadersAgree (file : Option Text) (inherited : Environment) : Prop :=
  ∃ loaded, loadProcessDotenv file inherited = some loaded ∧
    ∀ name, loaded name = currentSnapshot false file inherited name

/-- The assignments of a name that is not inherited begin and end with the same value, which holds no NUL. -/
def PlainFor (inherited : Environment) (entries : List (Text × Text)) : Prop :=
  ∀ name, inherited name = none →
    (assignedTo name entries).head? = (assignedTo name entries).getLast? ∧
      ∀ value, (assignedTo name entries).head? = some value → '\x00' ∉ value

theorem readers_agree_iff (file : Option Text) (inherited : Environment) :
    ReadersAgree file inherited ↔ ∀ source, file = some source → PlainFor inherited (parseDotenv source).values := by
  cases file with
  | none =>
      refine iff_of_true ⟨inherited, rfl, ?_⟩ ?_
      · intro name
        exact Option.or_none.symm
      · intro source absent
        cases absent
  | some source =>
      have one : (∀ other, some source = some other → PlainFor inherited (parseDotenv other).values) ↔
          PlainFor inherited (parseDotenv source).values := by
        constructor
        · exact fun all => all source rfl
        · rintro plain other ⟨⟩
          exact plain
      rw [one, ReadersAgree, loadProcessDotenv]
      rcases load_assignments inherited (parseDotenv source).values with ⟨settable, loaded, isLoaded, gets⟩ |
        ⟨unset, failed⟩
      · constructor
        · rintro ⟨other, isOther, same⟩ name missing
          rw [isLoaded] at isOther
          cases isOther
          refine ⟨?_, fun value isHead => settable name value missing isHead⟩
          have agreed := same name
          rw [gets, snapshot_get, missing] at agreed
          exact agreed
        · intro plain
          refine ⟨loaded, isLoaded, ?_⟩
          intro name
          rw [gets, snapshot_get]
          cases there : inherited name with
          | some value => rfl
          | none => rw [(plain name there).1]
      · constructor
        · rintro ⟨other, isOther, -⟩
          rw [failed] at isOther
          cases isOther
        · intro plain
          exact absurd (fun name value missing isHead => (plain name missing).2 value isHead) unset

/-- A name assigned twice: the server keeps the first value and its workers get the last one. -/
theorem readers_differ :
    (loadProcessDotenv (some "A=1\nA=2".toList) Environment.empty).map (· "A".toList) = some (some ['1']) ∧
    currentSnapshot false (some "A=1\nA=2".toList) Environment.empty "A".toList = some ['2'] ∧
    ¬∀ (file : Option Text) (inherited : Environment), ReadersAgree file inherited := by
  have first : (loadProcessDotenv (some "A=1\nA=2".toList) Environment.empty).map (· "A".toList) = some (some ['1']) := by
    decide +kernel
  have last : currentSnapshot false (some "A=1\nA=2".toList) Environment.empty "A".toList = some ['2'] := by
    decide +kernel
  refine ⟨first, last, ?_⟩
  intro agree
  obtain ⟨loaded, isLoaded, same⟩ := agree (some "A=1\nA=2".toList) Environment.empty
  rw [isLoaded, Option.map_some, same, last] at first
  exact absurd first (by decide)

end Panoptikon.Config
