import Panoptikon.Config.EnvTemplates

/-!
# Templates written from segments

A template is written from literal texts and placeholders: a literal spells each `${` as
`$${`. The scanner of the loader finds the segments again, unless a literal that ends in a
dollar meets a brace or a placeholder behind it.
-/

namespace Panoptikon.Config

open Foundation

/-- A placeholder as the syntax allows it: no closing brace before its own. -/
structure Placeholder where
  binding : EnvBinding
  valid : binding.Valid
  open_ : '\x7d' ∉ binding.body

inductive Segment where
  | literal (text : Text)
  | reference (placeholder : Placeholder)

/-- A literal text with every `${` spelled `$${`. -/
def spell : Text → Text
  | [] => []
  | '$' :: '\x7b' :: rest => '$' :: '$' :: '\x7b' :: spell rest
  | char :: rest => char :: spell rest

namespace Segment

def written : Segment → Text
  | .literal text => spell text
  | .reference placeholder => placeholder.binding.text

/-- What the segment stands for: its own text, or what the shell reads the placeholder as. -/
def value (lookup : Lookup) : Segment → Except TemplateError Text
  | .literal text => .ok text
  | .reference placeholder => placeholder.binding.read lookup

end Segment

def template (segments : List Segment) : Text := segments.flatMap Segment.written

/-- The values side by side, or the first failure. -/
def reading (lookup : Lookup) : List Segment → Except TemplateError Text
  | [] => .ok []
  | segment :: rest => do
      let value ← segment.value lookup
      (value ++ ·) <$> reading lookup rest

/-- What may stand behind a dollar of a literal: no placeholder, and no literal that begins with a brace. -/
def BehindDollar : List Segment → Prop
  | [] => True
  | .reference _ :: _ => False
  | .literal [] :: rest => BehindDollar rest
  | .literal (char :: _) :: _ => char ≠ '\x7b'

/-- No literal ends in a dollar that the text behind it would take up. -/
def Joined : List Segment → Prop
  | [] => True
  | .reference _ :: rest => Joined rest
  | .literal text :: rest => (text.getLast? = some '$' → BehindDollar rest) ∧ Joined rest

/-- Neither a brace nor the opening of a placeholder. -/
def Unopened (text : Text) : Prop := ¬['\x7b'] <+: text ∧ ¬['$', '\x7b'] <+: text

theorem unopened_nil : Unopened [] := by
  constructor
  · intro opens
    exact absurd (List.prefix_nil.mp opens) (List.cons_ne_nil _ _)
  · intro opens
    exact absurd (List.prefix_nil.mp opens) (List.cons_ne_nil _ _)

variable {char : Char} {rest : Text}

theorem unopened_cons (notBrace : char ≠ '\x7b')
    (plain : char = '$' → ¬['\x7b'] <+: rest) : Unopened (char :: rest) := by
  constructor
  · intro opens
    exact notBrace (List.cons_prefix_cons.mp opens).1.symm
  · intro opens
    have both := List.cons_prefix_cons.mp opens
    exact plain both.1.symm both.2

theorem spell_opening (rest : Text) : spell ('$' :: '\x7b' :: rest) = '$' :: '$' :: '\x7b' :: spell rest := by
  rw [spell]

theorem spell_plain (plain : ¬['$', '\x7b'] <+: char :: rest) : spell (char :: rest) = char :: spell rest := by
  rw [spell]
  intro tail isDollar isOpened
  apply plain
  rw [isDollar, isOpened]
  exact ⟨tail, rfl⟩

/-- A spelled text behind a dollar opens nothing, if its first letter is no brace. -/
theorem spelled_unopened {text behind : Text} (notBrace : ¬['\x7b'] <+: text)
    (ends : text.getLast? = some '$' → Unopened behind) (empty : text = [] → Unopened behind) :
    Unopened (spell text ++ behind) := by
  cases text with
  | nil =>
    rw [spell, List.nil_append]
    exact empty rfl
  | cons char rest =>
    have charNotBrace : char ≠ '\x7b' := by
      rintro rfl
      exact notBrace ⟨rest, rfl⟩
    by_cases opening : ['$', '\x7b'] <+: char :: rest
    · obtain ⟨tail, isText⟩ := opening
      rw [← isText, List.cons_append, List.singleton_append, spell_opening]
      apply unopened_cons (by decide)
      intro _ opens
      exact absurd (List.cons_prefix_cons.mp opens).1 (by decide)
    · rw [spell_plain opening, List.cons_append]
      apply unopened_cons charNotBrace
      rintro rfl opens
      cases rest with
      | nil =>
        rw [spell, List.nil_append] at opens
        exact (ends rfl).1 opens
      | cons second others =>
        have notSecond : second ≠ '\x7b' := by
          rintro rfl
          exact opening ⟨others, rfl⟩
        unfold spell at opens
        split at opens
        · rename_i isNil
          cases isNil
        · exact absurd (List.cons_prefix_cons.mp opens).1 (by decide)
        · rename_i head tail notOpening isCons
          injection isCons with isHead isTail
          rw [← isHead, List.cons_append] at opens
          exact notSecond (List.cons_prefix_cons.mp opens).1.symm

variable (lookup : Lookup)

theorem substitute_plain (plain : char = '$' → Unopened rest) :
    substituteStrWith lookup (char :: rest) = (char :: ·) <$> substituteStrWith lookup rest := by
  rw [substituteStrWith]
  · intro after isDollar isRest
    apply (plain isDollar).2
    rw [isRest]
    exact ⟨after, rfl⟩
  · intro inner isDollar isRest
    apply (plain isDollar).1
    rw [isRest]
    exact ⟨inner, rfl⟩

theorem map_append_map (first second : Text) (rest : Except TemplateError Text) :
    (first ++ ·) <$> ((second ++ ·) <$> rest) = (first ++ second ++ ·) <$> rest := by
  cases rest with
  | error fault => rfl
  | ok text => exact congrArg Except.ok (List.append_assoc first second text).symm

/-- The scanner reads a spelled literal as its text and goes on behind it. -/
theorem substitute_spelled {text behind : Text} (ends : text.getLast? = some '$' → Unopened behind) :
    substituteStrWith lookup (spell text ++ behind) = (text ++ ·) <$> substituteStrWith lookup behind := by
  induction text using spell.induct with
  | case1 =>
    rw [spell, List.nil_append]
    cases substituteStrWith lookup behind <;> rfl
  | case2 rest ih =>
    have endsRest : rest.getLast? = some '$' → Unopened behind := by
      intro isDollar
      apply ends
      rw [List.getLast?_cons_cons, List.getLast?_cons, isDollar]
      rfl
    rw [spell_opening, List.cons_append, List.cons_append, List.cons_append, substituteStrWith, ih endsRest,
      map_append_map]
    rfl
  | case3 char rest notOpening ih =>
    have endsRest : rest.getLast? = some '$' → Unopened behind := by
      intro isDollar
      apply ends
      rw [List.getLast?_cons, isDollar]
      rfl
    have plain : ¬['$', '\x7b'] <+: char :: rest := by
      rintro ⟨tail, isText⟩
      injection isText with isDollar isTail
      exact notOpening tail isDollar.symm isTail.symm
    have behindDollar : char = '$' → Unopened (spell rest ++ behind) := by
      rintro rfl
      apply spelled_unopened _ endsRest
      · rintro rfl
        exact ends rfl
      · rintro ⟨tail, isRest⟩
        apply plain
        rw [← isRest]
        exact ⟨tail, rfl⟩
    rw [spell_plain plain, List.cons_append, substitute_plain lookup behindDollar, ih endsRest]
    exact map_append_map [char] rest _

theorem template_unopened {segments : List Segment} (joined : Joined segments) (behind : BehindDollar segments) :
    Unopened (template segments) := by
  induction segments with
  | nil => exact unopened_nil
  | cons segment rest ih =>
    cases segment with
    | reference placeholder => exact behind.elim
    | literal text =>
      have ends : text.getLast? = some '$' → Unopened (template rest) := by
        intro isDollar
        exact ih joined.2 (joined.1 isDollar)
      change Unopened (spell text ++ template rest)
      apply spelled_unopened _ ends
      · rintro rfl
        exact ih joined.2 behind
      · rintro ⟨tail, rfl⟩
        exact behind rfl

/-- A template is substituted segment by segment: the values side by side, or the first failure. -/
theorem substitute_template {segments : List Segment} (joined : Joined segments) :
    substituteStrWith lookup (template segments) = reading lookup segments := by
  induction segments with
  | nil =>
    change substituteStrWith lookup [] = .ok []
    rw [substituteStrWith]
  | cons segment rest ih =>
    cases segment with
    | reference placeholder =>
      have read := substitute_binding placeholder.valid placeholder.open_ lookup (template rest)
      have writes : template (.reference placeholder :: rest) =
          '$' :: '\x7b' :: (placeholder.binding.body ++ '\x7d' :: template rest) := by
        change placeholder.binding.text ++ template rest = _
        rw [EnvBinding.text, List.cons_append, List.cons_append, List.append_assoc, List.singleton_append]
      rw [writes, read, ih joined]
      rfl
    | literal text =>
      have ends : text.getLast? = some '$' → Unopened (template rest) := by
        intro isDollar
        exact template_unopened joined.2 (joined.1 isDollar)
      change substituteStrWith lookup (spell text ++ template rest) = _
      rw [substitute_spelled lookup ends, ih joined.2]
      rfl

/-- A variable that no placeholder may refer to: one whose value is no Unicode, or an unset one that has no default. -/
def Segment.Fails (lookup : Lookup) : Segment → Prop
  | .literal _ => False
  | .reference placeholder =>
      (∃ fault, lookup placeholder.binding.name = .error fault) ∨
        (placeholder.binding.fallback = none ∧ lookup placeholder.binding.name = .ok none)

theorem read_fails_iff (binding : EnvBinding) (lookup : Lookup) : (∃ fault, binding.read lookup = .error fault) ↔
      (∃ fault, lookup binding.name = .error fault) ∨
        (binding.fallback = none ∧ lookup binding.name = .ok none) := by
  unfold EnvBinding.read
  cases lookup binding.name with
  | error fault => simp
  | ok found =>
    cases found with
    | none => cases binding.fallback <;> simp
    | some value =>
      dsimp only
      split <;> simp

theorem value_fails_iff (segment : Segment) :
    (∃ fault, segment.value lookup = .error fault) ↔ segment.Fails lookup := by
  cases segment with
  | literal text =>
    constructor
    · rintro ⟨fault, isError⟩
      cases isError
    · exact False.elim
  | reference placeholder => exact read_fails_iff placeholder.binding lookup

theorem reading_fails_iff (segments : List Segment) :
    (∃ fault, reading lookup segments = .error fault) ↔ ∃ segment ∈ segments, segment.Fails lookup := by
  induction segments with
  | nil =>
    constructor
    · rintro ⟨fault, isError⟩
      cases isError
    · rintro ⟨segment, isIn, -⟩
      cases isIn
  | cons segment rest ih =>
    rw [List.exists_mem_cons_iff, ← ih, ← value_fails_iff, reading]
    cases segment.value lookup with
    | error fault =>
      constructor
      · intro _
        exact .inl ⟨fault, rfl⟩
      · intro _
        exact ⟨fault, rfl⟩
    | ok value =>
      have ok : ¬∃ fault, (Except.ok value : Except TemplateError Text) = .error fault := by
        rintro ⟨fault, isError⟩
        cases isError
      rw [or_iff_right ok]
      cases reading lookup rest with
      | error fault =>
        constructor
        · intro _
          exact ⟨fault, rfl⟩
        · intro _
          exact ⟨fault, rfl⟩
      | ok text =>
        constructor
        · rintro ⟨fault, isError⟩
          cases isError
        · rintro ⟨fault, isError⟩
          cases isError

/-- A template is substituted in one pass: its segments' values side by side, and a failure exactly where a
placeholder's variable may not be referred to. -/
theorem single_pass (lookup : Lookup) {segments : List Segment} (joined : Joined segments) :
    substituteStrWith lookup (template segments) = reading lookup segments ∧
      ((∃ fault, substituteStrWith lookup (template segments) = .error fault) ↔
        ∃ segment ∈ segments, segment.Fails lookup) := by
  have substituted := substitute_template lookup joined
  constructor
  · exact substituted
  · rw [substituted]
    exact reading_fails_iff lookup segments

/-- A literal with lone dollars and an opening of its own, and a placeholder behind it. -/
def priced : List Segment :=
  [.literal "$$5 $\x7b".toList, .reference ⟨orX, ⟨by decide, by decide⟩, by decide⟩]

theorem priced_single_pass :
    substituteStrWith (everySet ['v']) (template priced) = .ok "$$5 $\x7bv".toList ∧
      ¬∃ fault, substituteStrWith (everySet ['v']) (template priced) = .error fault := by
  have joined : Joined priced := by
    constructor
    · intro isDollar
      exact absurd isDollar (by decide)
    · exact trivial
  have passed := single_pass (everySet ['v']) joined
  have read : reading (everySet ['v']) priced = .ok "$$5 $\x7bv".toList := by decide
  constructor
  · rw [passed.1, read]
  · rw [passed.1, read]
    rintro ⟨fault, isError⟩
    cases isError

/-- No literal directly in front of a placeholder ends in a dollar. -/
def DollarApart : List Segment → Prop
  | .literal text :: .reference _ :: rest => text.getLast? ≠ some '$' ∧ DollarApart rest
  | _ :: rest => DollarApart rest
  | [] => True

/-- Two literals write one placeholder. -/
def splitOpening : List Segment := [.literal ['$'], .literal "\x7bA\x7d".toList]

theorem literals_substituted :
    DollarApart splitOpening ∧ reading (everySet ['v']) splitOpening = .ok "$\x7bA\x7d".toList ∧
      substituteStrWith (everySet ['v']) (template splitOpening) = .ok ['v'] := by
  have bare : EnvBinding.Valid ⟨['A'], none, false⟩ := ⟨by decide, by decide⟩
  have loaded := loaded_open bare (by decide) (everySet ['v'])
  exact ⟨trivial, by decide, loaded⟩

end Panoptikon.Config
