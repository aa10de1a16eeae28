import Panoptikon.Config.DotenvLines

/-!
# Environment variables in templates

The loader replaces the placeholders of a string in one pass, and the settings editor
recognizes a string that is one placeholder. Each reads `${NAME:-default}` with a
scanner of its own.
-/

namespace Panoptikon.Config

open Foundation

/-- `[A-Za-z_]` -/
def isNameStart (char : Char) : Bool := char.isAlpha || char == '_'

/-- The leading variable name, which may be empty, and what follows it. -/
def splitVarName : Text → Text × Text
  | [] => ([], [])
  | first :: rest =>
      if isNameStart first then (first :: rest.takeWhile isNameChar, rest.dropWhile isNameChar)
      else ([], first :: rest)

/-- A placeholder: its variable and its default, which may stand in for an empty value too. -/
structure Reference where
  name : Text
  fallback : Option Text
  emptyUsesDefault : Bool

inductive TemplateError where
  | expectedName (snippet : Text)
  | missingBrace (snippet : Text)
  | expectedOperator (snippet : Text)
  | unset (name : Text)
  | lookup (message : Text)
deriving DecidableEq

def snippet (text : Text) : Text := text.take 24

/-- Whether the text ends at a closing brace: what stands before it, and behind it. -/
def untilBrace (text : Text) : Option (Text × Text) :=
  if text.elem '\x7d' then some (text.takeWhile (· != '\x7d'), (text.dropWhile (· != '\x7d')).drop 1) else none

/-- The default that an operator introduces, and whether an empty value asks for it too. -/
def splitOperator : Text → Option (Text × Bool)
  | ':' :: '-' :: rest => some (rest, true)
  | '-' :: rest => some (rest, false)
  | _ => none

/-- A placeholder behind its dollar and brace, and what follows it. -/
def readReference (inner : Text) : Except TemplateError (Reference × Text) :=
  let tail := snippet ('$' :: '\x7b' :: inner)
  let name := (splitVarName inner).1
  let afterName := (splitVarName inner).2
  if name.isEmpty then .error (.expectedName tail)
  else
    match afterName with
    | '\x7d' :: after => .ok (⟨name, none, false⟩, after)
    | _ =>
        match splitOperator afterName with
        | none => .error (.expectedOperator tail)
        | some (afterOp, emptyUsesDefault) =>
            match untilBrace afterOp with
            | none => .error (.missingBrace tail)
            | some (default, after) => .ok (⟨name, some default, emptyUsesDefault⟩, after)

/-- The values of variables; a value that is no Unicode is an error. -/
abbrev Lookup := Text → Except TemplateError (Option Text)

def Reference.value (reference : Reference) (lookup : Lookup) : Except TemplateError Text :=
  match lookup reference.name with
  | .error fault => .error fault
  | .ok found =>
      match reference.fallback with
      | none =>
          match found with
          | some value => .ok value
          | none => .error (.unset reference.name)
      | some default =>
          match found with
          | some value => .ok (if reference.emptyUsesDefault && value.isEmpty then default else value)
          | none => .ok default

theorem split_var_name_append (text : Text) : (splitVarName text).1 ++ (splitVarName text).2 = text := by
  cases text with
  | nil => rfl
  | cons first rest =>
    rw [splitVarName]
    split
    · rw [List.cons_append, List.takeWhile_append_dropWhile]
    · rfl

theorem until_brace_first {default : Text} (open_ : '\x7d' ∉ default) (after : Text) :
    untilBrace (default ++ '\x7d' :: after) = some (default, after) := by
  have passed : ∀ char ∈ default, (char != '\x7d') = true := by
    intro char isChar
    rw [bne_iff_ne]
    rintro rfl
    exact open_ isChar
  have closed : List.elem '\x7d' (default ++ '\x7d' :: after) = true :=
    List.elem_iff.mpr (List.mem_append_right default List.mem_cons_self)
  rw [untilBrace, if_pos closed, List.takeWhile_append_of_pos passed, List.dropWhile_append_of_pos passed,
    List.takeWhile_cons_of_neg (by decide), List.dropWhile_cons_of_neg (by decide), List.append_nil,
    List.drop_one, List.tail_cons]

theorem until_brace_iff {text default after : Text} :
    untilBrace text = some (default, after) ↔ text = default ++ '\x7d' :: after ∧ '\x7d' ∉ default := by
  constructor
  · intro found
    have closed : '\x7d' ∈ text := by
      rw [untilBrace] at found
      split at found
      · rename_i isElem
        exact List.elem_iff.mp isElem
      · cases found
    obtain ⟨before, behind, rfl, open_⟩ := List.eq_append_cons_of_mem closed
    rw [until_brace_first open_] at found
    cases found
    exact ⟨rfl, open_⟩
  · rintro ⟨rfl, open_⟩
    exact until_brace_first open_ after

theorem split_operator_shorter {text rest : Text} {emptyUsesDefault : Bool}
    (isSplit : splitOperator text = some (rest, emptyUsesDefault)) : rest.length < text.length := by
  unfold splitOperator at isSplit
  split at isSplit
  · cases isSplit
    simp only [List.length_cons]
    omega
  · cases isSplit
    exact Nat.lt_succ_self _
  · cases isSplit

theorem read_reference_shorter {inner after : Text} {reference : Reference}
    (isRead : readReference inner = .ok (reference, after)) : after.length < inner.length := by
  have whole := congrArg List.length (split_var_name_append inner)
  rw [List.length_append] at whole
  unfold readReference at isRead
  dsimp only at isRead
  split at isRead
  · cases isRead
  · split at isRead
    · rename_i rest closes
      cases isRead
      rw [closes, List.length_cons] at whole
      omega
    · split at isRead
      · cases isRead
      · rename_i afterOp emptyUsesDefault isSplit
        split at isRead
        · cases isRead
        · rename_i default rest isDefault
          cases isRead
          have shorter := split_operator_shorter isSplit
          have behind := congrArg List.length (until_brace_iff.mp isDefault).1
          rw [List.length_append, List.length_cons] at behind
          omega

/-- One pass over the string: `$${` is an escape, `${` begins a placeholder, any other dollar is literal. -/
def substituteStrWith (lookup : Lookup) : Text → Except TemplateError Text
  | [] => .ok []
  | '$' :: '$' :: '\x7b' :: after => (['$', '\x7b'] ++ ·) <$> substituteStrWith lookup after
  | '$' :: '\x7b' :: inner =>
      match _isRead : readReference inner with
      | .error fault => .error fault
      | .ok (reference, after) => do
          let value ← reference.value lookup
          (value ++ ·) <$> substituteStrWith lookup after
  | char :: rest => (char :: ·) <$> substituteStrWith lookup rest
termination_by text => text.length
decreasing_by
  · simp only [List.length_cons]
    omega
  · have shorter := read_reference_shorter _isRead
    simp only [List.length_cons]
    omega
  · simp only [List.length_cons]
    omega

structure EnvBinding where
  name : Text
  fallback : Option Text
  fallbackOnEmpty : Bool
deriving DecidableEq

def isOperator (char : Char) : Bool := char == ':' || char == '-'

/-- The variable in front of the first operator character, and what the operator introduces. -/
def splitBody (body : Text) : Option EnvBinding :=
  match body.dropWhile fun char => !isOperator char with
  | [] => some ⟨body, none, false⟩
  | ':' :: '-' :: fallback => some ⟨body.takeWhile fun char => !isOperator char, some fallback, true⟩
  | '-' :: fallback => some ⟨body.takeWhile fun char => !isOperator char, some fallback, false⟩
  | _ => none

def wholeValueEnvBinding (value : Text) : Option EnvBinding := do
  let opened ← Text.stripPrefix ['$', '\x7b'] value
  let body ← Text.stripSuffix ['\x7d'] opened
  let binding ← splitBody body
  if isEnvName binding.name then some binding else none

namespace EnvBinding

/-- What stands between the braces. -/
def body (binding : EnvBinding) : Text :=
  match binding.fallback with
  | none => binding.name
  | some fallback => binding.name ++ ((if binding.fallbackOnEmpty then [':', '-'] else ['-']) ++ fallback)

def text (binding : EnvBinding) : Text := '$' :: '\x7b' :: (binding.body ++ ['\x7d'])

/-- A name, and a test for emptiness only where there is a fallback. -/
structure Valid (binding : EnvBinding) : Prop where
  named : isEnvName binding.name = true
  bare : binding.fallback = none → binding.fallbackOnEmpty = false

/-- The variable's value, or the fallback when it is unset, or empty where that counts. -/
def read (binding : EnvBinding) (lookup : Lookup) : Except TemplateError Text :=
  match lookup binding.name with
  | .error fault => .error fault
  | .ok none =>
      match binding.fallback with
      | some fallback => .ok fallback
      | none => .error (.unset binding.name)
  | .ok (some value) =>
      if binding.fallbackOnEmpty && value.isEmpty then .ok (binding.fallback.getD value) else .ok value

end EnvBinding

theorem name_char_plain {char : Char} (isName : isNameChar char = true) : isOperator char = false := by
  have differs {other : Char} (isOther : isNameChar other = false) : char ≠ other := by
    rintro rfl
    rw [isName] at isOther
    cases isOther
  rw [isOperator, Bool.or_eq_false_iff, beq_eq_false_iff_ne, beq_eq_false_iff_ne]
  exact ⟨differs (by decide), differs (by decide)⟩

/-- What stands behind a name: nothing that would belong to it. -/
def EndsName (rest : Text) : Prop := ∀ char ∈ rest.head?, isNameChar char = false

theorem split_var_name_whole {name rest : Text} (isName : isEnvName name = true) (ends : EndsName rest) :
    splitVarName (name ++ rest) = (name, rest) := by
  cases name with
  | nil => cases isName
  | cons first others =>
    rw [isEnvName, Bool.and_eq_true, List.all_eq_true] at isName
    have run : ∀ char ∈ others, isNameChar char = true := isName.2
    rw [List.cons_append, splitVarName, if_pos (by exact isName.1), List.takeWhile_append_of_pos run,
      List.dropWhile_append_of_pos run]
    cases rest with
    | nil => rw [List.takeWhile_nil, List.dropWhile_nil, List.append_nil]
    | cons char after =>
      have stops := ends char rfl
      rw [List.takeWhile_cons_of_neg (by rw [stops]; decide), List.append_nil,
        List.dropWhile_cons_of_neg (by rw [stops]; decide)]

namespace EnvBinding

/-- The placeholder that the loader reads. -/
def reference (binding : EnvBinding) : Reference := ⟨binding.name, binding.fallback, binding.fallbackOnEmpty⟩

theorem reference_value (binding : EnvBinding) (lookup : Lookup) :
    binding.reference.value lookup = binding.read lookup := by
  unfold Reference.value EnvBinding.read reference
  dsimp only
  cases lookup binding.name with
  | error fault => rfl
  | ok found =>
    cases found with
    | none => cases binding.fallback <;> rfl
    | some value =>
      cases binding.fallback with
      | none =>
        dsimp only
        rw [Option.getD_none, ite_self]
      | some fallback =>
        dsimp only
        split <;> rfl

variable {binding : EnvBinding}

theorem body_bare (bare : binding.fallback = none) : binding.body = binding.name := by
  rw [body, bare]

theorem body_fallback {fallback : Text} (has : binding.fallback = some fallback) :
    binding.body = binding.name ++ ((if binding.fallbackOnEmpty then [':', '-'] else ['-']) ++ fallback) := by
  rw [body, has]

/-- The loader reads a placeholder as the binding, if no brace closes it early. -/
theorem loader_reads (valid : binding.Valid) (open_ : '\x7d' ∉ binding.body) (after : Text) :
    readReference (binding.body ++ '\x7d' :: after) = .ok (binding.reference, after) := by
  have nonempty : binding.name.isEmpty = false := by
    rw [List.isEmpty_eq_false_iff]
    exact (env_name_chars valid.named).1
  cases has : binding.fallback with
  | none =>
    have ends : EndsName ('\x7d' :: after) := by
      intro char isHead
      cases isHead
      decide
    rw [body_bare has, readReference, split_var_name_whole valid.named ends, reference, has, valid.bare has]
    simp only [nonempty, Bool.false_eq_true, ↓reduceIte]
  | some fallback =>
    rw [body_fallback has, List.mem_append, List.mem_append, not_or, not_or] at open_
    have first := until_brace_first open_.2.2 after
    rw [body_fallback has, List.append_assoc, List.append_assoc, reference, has, readReference]
    cases onEmpty : binding.fallbackOnEmpty with
    | false =>
      have ends : EndsName ('-' :: (fallback ++ '\x7d' :: after)) := by
        intro char isHead
        cases isHead
        decide
      simp only [Bool.false_eq_true, ↓reduceIte, List.singleton_append,
        split_var_name_whole valid.named ends, nonempty, splitOperator, first]
      rfl
    | true =>
      have ends : EndsName (':' :: '-' :: (fallback ++ '\x7d' :: after)) := by
        intro char isHead
        cases isHead
        decide
      simp only [↓reduceIte, List.cons_append, List.nil_append,
        split_var_name_whole valid.named ends, nonempty, Bool.false_eq_true, splitOperator, first]
      rfl

/-- A brace in the body is one in the fallback, and the first one ends a shorter placeholder. -/
theorem body_closes_early (valid : binding.Valid) (closed : '\x7d' ∈ binding.body) :
    ∃ early : EnvBinding, ∃ behind : Text, early.Valid ∧ '\x7d' ∉ early.body ∧ early.name = binding.name ∧
      binding.body = early.body ++ '\x7d' :: behind := by
  have nameOpen : '\x7d' ∉ binding.name := not_in_env_name valid.named (by decide)
  cases has : binding.fallback with
  | none =>
    rw [body_bare has] at closed
    exact absurd closed nameOpen
  | some fallback =>
    have operatorOpen : '\x7d' ∉ (if binding.fallbackOnEmpty then [':', '-'] else ['-']) := by
      cases binding.fallbackOnEmpty <;> decide
    rw [body_fallback has, List.mem_append, List.mem_append] at closed
    have inFallback : '\x7d' ∈ fallback := (closed.resolve_left nameOpen).resolve_left operatorOpen
    obtain ⟨short, behind, rfl, shortOpen⟩ := List.eq_append_cons_of_mem inFallback
    refine ⟨{ binding with fallback := some short }, behind, ⟨valid.named, ?_⟩, ?_, rfl, ?_⟩
    · intro absent
      cases absent
    · rw [body_fallback rfl, List.mem_append, List.mem_append, not_or, not_or]
      exact ⟨nameOpen, operatorOpen, shortOpen⟩
    · rw [body_fallback has, body_fallback rfl]
      simp only [List.append_assoc]

end EnvBinding

variable {binding : EnvBinding}

theorem split_body_binding (valid : binding.Valid) : splitBody binding.body = some binding := by
  have plain : ∀ char ∈ binding.name, (!isOperator char) = true := by
    intro char isChar
    rw [name_char_plain ((env_name_chars valid.named).2 char isChar), Bool.not_false]
  obtain ⟨name, fallback, fallbackOnEmpty⟩ := binding
  cases fallback with
  | none =>
    have bare := valid.bare rfl
    dsimp only at bare plain
    have split := List.dropWhile_eq_nil_iff.mpr plain
    rw [EnvBinding.body_bare rfl, splitBody, split, bare]
  | some fallback =>
    have operator : isOperator '-' = true ∧ isOperator ':' = true := by decide
    dsimp only at plain
    rw [EnvBinding.body_fallback rfl, splitBody]
    cases fallbackOnEmpty with
    | false =>
      simp only [Bool.false_eq_true, ↓reduceIte, List.singleton_append,
        List.dropWhile_append_of_pos plain, List.takeWhile_append_of_pos plain, List.dropWhile_cons,
        List.takeWhile_cons, operator, Bool.not_true, List.append_nil]
    | true =>
      simp only [↓reduceIte, List.cons_append, List.nil_append, Bool.false_eq_true,
        List.dropWhile_append_of_pos plain, List.takeWhile_append_of_pos plain, List.dropWhile_cons,
        List.takeWhile_cons, operator, Bool.not_true, List.append_nil]

theorem split_body_reads {body : Text} (isSplit : splitBody body = some binding) :
    body = binding.body ∧ (binding.fallback = none → binding.fallbackOnEmpty = false) := by
  have whole : (body.takeWhile fun char => !isOperator char) ++ (body.dropWhile fun char => !isOperator char) = body :=
    List.takeWhile_append_dropWhile
  unfold splitBody at isSplit
  split at isSplit
  · cases isSplit
    exact ⟨rfl, fun _ => rfl⟩
  · rename_i fallback behind
    cases isSplit
    rw [behind] at whole
    refine ⟨whole.symm, ?_⟩
    intro absent
    cases absent
  · rename_i fallback behind
    cases isSplit
    rw [behind] at whole
    refine ⟨whole.symm, ?_⟩
    intro absent
    cases absent
  · cases isSplit

theorem recognized_iff {source : Text} :
    wholeValueEnvBinding source = some binding ↔ binding.Valid ∧ source = binding.text := by
  constructor
  · intro found
    unfold wholeValueEnvBinding at found
    simp only [Option.bind_eq_bind, Option.bind_eq_some_iff] at found
    obtain ⟨opened, isOpened, body, isBody, split, isSplit, kept⟩ := found
    split at kept
    · rename_i isName
      cases kept
      have reads := split_body_reads isSplit
      refine ⟨⟨isName, reads.2⟩, ?_⟩
      rw [Text.strip_prefix_eq_some.mp isOpened, Text.strip_suffix_eq_some.mp isBody, reads.1]
      rfl
    · cases kept
  · rintro ⟨valid, rfl⟩
    unfold wholeValueEnvBinding
    have opened : Text.stripPrefix ['$', '\x7b'] binding.text = some (binding.body ++ ['\x7d']) :=
      Text.strip_prefix_append ['$', '\x7b'] (binding.body ++ ['\x7d'])
    rw [opened, Option.bind_eq_bind, Option.bind_some, Text.strip_suffix_eq_some.mpr rfl, Option.bind_eq_bind,
      Option.bind_some, split_body_binding valid, Option.bind_some, if_pos valid.named]

theorem substitute_binding (valid : binding.Valid) (open_ : '\x7d' ∉ binding.body)
    (lookup : Lookup) (after : Text) :
    substituteStrWith lookup ('$' :: '\x7b' :: (binding.body ++ '\x7d' :: after)) = (do
      let value ← binding.read lookup
      (value ++ ·) <$> substituteStrWith lookup after) := by
  have isRead := EnvBinding.loader_reads valid open_ after
  rw [substituteStrWith, isRead]
  simp only [EnvBinding.reference_value]

/-- Where every variable is set to `value`. -/
def everySet (value : Text) : Lookup := fun _ => .ok (some value)

variable {value : Text}

theorem read_every_set (binding : EnvBinding) (nonempty : value ≠ []) :
    binding.read (everySet value) = .ok value := by
  have isEmpty : value.isEmpty = false := List.isEmpty_eq_false_iff.mpr nonempty
  unfold EnvBinding.read everySet
  simp only [isEmpty, Bool.and_false, Bool.false_eq_true, ↓reduceIte]

theorem value_every_set (reference : Reference) (nonempty : value ≠ []) :
    reference.value (everySet value) = .ok value := by
  have isEmpty : value.isEmpty = false := List.isEmpty_eq_false_iff.mpr nonempty
  unfold Reference.value everySet
  cases reference.fallback with
  | none => rfl
  | some default => simp only [isEmpty, Bool.and_false, Bool.false_eq_true, ↓reduceIte]

theorem map_append_ok_nil {first : Text} {rest : Except TemplateError Text} (none_ : (first ++ ·) <$> rest = .ok []) :
    first = [] := by
  cases rest with
  | error fault => cases none_
  | ok later =>
    injection none_ with empty
    exact (List.append_eq_nil_iff.mp empty).1

theorem substitute_every_set (nonempty : value ≠ []) {text : Text}
    (empty : substituteStrWith (everySet value) text = .ok []) : text = [] := by
  cases text using substituteStrWith.fun_cases with
  | case1 => rfl
  | case2 after =>
    rw [substituteStrWith] at empty
    exact absurd (map_append_ok_nil empty) (by decide)
  | case3 inner fault isRead =>
    rw [substituteStrWith, isRead] at empty
    cases empty
  | case4 inner reference after isRead =>
    rw [substituteStrWith, isRead] at empty
    simp only [value_every_set reference nonempty] at empty
    exact absurd (map_append_ok_nil empty) nonempty
  | case5 char rest notEscape notPlaceholder =>
    rw [substituteStrWith] at empty
    · have first : ([char] ++ ·) <$> substituteStrWith (everySet value) rest = .ok [] := empty
      exact absurd (map_append_ok_nil first) (List.cons_ne_nil char [])
    · exact notEscape
    · exact notPlaceholder

/-- The loader reads a recognized text as the binding in every environment. -/
def LoadedAs (source : Text) (binding : EnvBinding) : Prop :=
  ∀ lookup : Lookup, substituteStrWith lookup source = binding.read lookup

theorem loaded_open (valid : binding.Valid) (open_ : '\x7d' ∉ binding.body) : LoadedAs binding.text binding := by
  intro lookup
  have reads := substitute_binding valid open_ lookup []
  rw [EnvBinding.text, reads]
  cases binding.read lookup with
  | error fault => rfl
  | ok value =>
    have ends : substituteStrWith lookup [] = .ok [] := by rw [substituteStrWith]
    change (value ++ ·) <$> substituteStrWith lookup [] = .ok value
    rw [ends]
    exact congrArg Except.ok (List.append_nil value)

/-- Behind a placeholder that ends early, the loader still finds the last brace. -/
theorem loaded_open_only (valid : binding.Valid)
    (loaded : LoadedAs binding.text binding) : '\x7d' ∉ binding.body := by
  intro closed
  obtain ⟨early, behind, earlyValid, earlyOpen, -, split⟩ := EnvBinding.body_closes_early valid closed
  have oneLetter : ['x'] ≠ ([] : Text) := List.cons_ne_nil 'x' []
  have substituted := loaded (everySet ['x'])
  have whole : binding.text = '$' :: '\x7b' :: (early.body ++ '\x7d' :: (behind ++ ['\x7d'])) := by
    rw [EnvBinding.text, split, List.append_assoc, List.cons_append]
  rw [read_every_set binding oneLetter, whole, substitute_binding earlyValid earlyOpen,
    read_every_set early oneLetter] at substituted
  change (['x'] ++ ·) <$> substituteStrWith (everySet ['x']) (behind ++ ['\x7d']) = .ok ['x'] at substituted
  cases rest : substituteStrWith (everySet ['x']) (behind ++ ['\x7d']) with
  | error fault =>
    rw [rest] at substituted
    cases substituted
  | ok text =>
    rw [rest] at substituted
    injection substituted with same
    injection same with _ isEmpty
    change text = [] at isEmpty
    rw [isEmpty] at rest
    exact List.append_ne_nil_of_right_ne_nil behind (List.cons_ne_nil '\x7d' []) (substitute_every_set oneLetter rest)

/-- The editor recognizes every placeholder that is the whole text. It reads the text as the loader
does exactly if no brace closes the placeholder before the last one. -/
theorem readers_alike_iff (source : Text) :
    (∀ binding, wholeValueEnvBinding source = some binding →
      (LoadedAs source binding ↔ '\x7d' ∉ source.dropLast)) ∧
    ∀ binding : EnvBinding, binding.Valid → source = binding.text → wholeValueEnvBinding source = some binding := by
  constructor
  · intro binding found
    obtain ⟨valid, rfl⟩ := recognized_iff.mp found
    have before : '\x7d' ∈ binding.text.dropLast ↔ '\x7d' ∈ binding.body := by
      have front : binding.text.dropLast = ['$', '\x7b'] ++ binding.body := by
        have split : binding.text = (['$', '\x7b'] ++ binding.body) ++ ['\x7d'] := rfl
        rw [split, List.dropLast_concat]
      have opening : '\x7d' ∉ ['$', '\x7b'] := by decide
      rw [front, List.mem_append, or_iff_right opening]
    rw [before]
    constructor
    · exact loaded_open_only valid
    · exact loaded_open valid
  · intro binding valid isText
    exact recognized_iff.mpr ⟨valid, isText⟩

/-- `${A:-x}` -/
def orX : EnvBinding := ⟨['A'], some ['x'], true⟩

/-- `${B:-y}` -/
def orY : EnvBinding := ⟨['B'], some ['y'], true⟩

/-- Two placeholders are recognized as one, whose fallback holds the second. -/
theorem readers_part :
    ∃ binding, wholeValueEnvBinding "$\x7bA:-x\x7d$\x7bB:-y\x7d".toList = some binding ∧
      binding.read (fun _ => .ok none) = .ok "x\x7d$\x7bB:-y".toList ∧
      substituteStrWith (fun _ => .ok none) "$\x7bA:-x\x7d$\x7bB:-y\x7d".toList = .ok "xy".toList := by
  refine ⟨⟨['A'], some "x\x7d$\x7bB:-y".toList, true⟩, by decide +kernel, rfl, ?_⟩
  have validX : orX.Valid := ⟨by decide, by decide⟩
  have validY : orY.Valid := ⟨by decide, by decide⟩
  have first := substitute_binding validX (by decide) (fun _ => .ok none) orY.text
  have second := loaded_open validY (by decide) fun _ => .ok none
  rw [second] at first
  exact first

end Panoptikon.Config
