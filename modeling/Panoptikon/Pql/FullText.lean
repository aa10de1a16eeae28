import Panoptikon.Foundation.ShellWords
import Panoptikon.Pql.Preprocess

/-!
# Escaped full-text queries

What a user types is split into words like a shell line, and every word becomes
one FTS5 string literal. Whatever the words are, the literals read back as them;
what is left open is whether there are any.
-/

namespace Panoptikon.Pql

open Foundation Foundation.Text Foundation.Shell

inductive LiteralState where
  /-- Where a literal has to begin. -/
  | opening
  | inside
  /-- After a quote that ends the literal, unless another quote follows. -/
  | closing
deriving DecidableEq, Repr

/-- The string literals from a state on, with one space between two of them. -/
def readFrom : LiteralState → Text → Text → Option (List Text)
  | .opening, _, [] => none
  | .opening, _, char :: rest => if char = '"' then readFrom .inside [] rest else none
  | .inside, _, [] => none
  | .inside, content, char :: rest =>
      if char = '"' then readFrom .closing content rest else readFrom .inside (content ++ [char]) rest
  | .closing, content, [] => some [content]
  | .closing, content, char :: rest =>
      if char = '"' then readFrom .inside (content ++ ['"']) rest
      else if char = ' ' then (readFrom .opening [] rest).map (content :: ·)
      else none

/-- The contents of the literals a match expression is made of, if it is made of nothing else. -/
def readLiterals (expression : Text) : Option (List Text) :=
  if expression.isEmpty then some [] else readFrom .opening [] expression

section Escape

variable (shellSplit : Text → Option (List Text))

/-- The line that is given to the shell splitter. -/
def shellLine (userInput : Text) : Text :=
  let working := replace ['\\', '"'] ['"', '"'] userInput
  let working := if working.count '"' % 2 = 0 then working else working ++ ['"']
  let working := replace ['\''] ['\\', '\''] working
  replace ['"', '"'] ['\\', '"'] working

def quoteToken (token : Text) : Text := '"' :: replace ['"'] ['"', '"'] token ++ ['"']

/-- A line that the shell cannot split is split at whitespace. -/
def tokensOf (working : Text) : List Text := (shellSplit working).getD (splitWhitespace working)

def parseAndEscapeQuery (userInput : Text) : Text :=
  [' '].intercalate ((tokensOf shellSplit (shellLine userInput)).map quoteToken)

end Escape

theorem read_inside (content token rest : Text) :
    readFrom .inside content (replace ['"'] ['"', '"'] token ++ '"' :: rest) =
      readFrom .closing (content ++ token) rest := by
  rw [replace_char]
  induction token generalizing content with
  | nil => simp [readFrom]
  | cons char token ih =>
    rw [List.flatMap_cons]
    by_cases quote : char = '"'
    · have later := ih (content ++ ['"'])
      rw [List.append_assoc] at later
      subst quote
      simpa [readFrom] using later
    · have later := ih (content ++ [char])
      rw [List.append_assoc] at later
      simpa [readFrom, quote] using later

theorem read_quoted_token (token rest : Text) :
    readFrom .opening [] (quoteToken token ++ rest) = readFrom .closing token rest := by
  have read := read_inside [] token rest
  rw [List.nil_append] at read
  unfold quoteToken
  rw [List.cons_append, List.cons_append, List.append_assoc, readFrom, if_pos rfl]
  exact read

theorem read_quoted (token : Text) (tokens : List Text) :
    readFrom .opening [] ([' '].intercalate ((token :: tokens).map quoteToken)) = some (token :: tokens) := by
  induction tokens generalizing token with
  | nil =>
    have last := read_quoted_token token []
    rw [List.append_nil] at last
    rw [List.map_singleton, List.intercalate_singleton, last]
    rfl
  | cons next tokens ih =>
    have later := ih next
    rw [List.map_cons] at later
    rw [List.map_cons, List.map_cons, List.intercalate_cons_cons, List.append_assoc, read_quoted_token]
    rw [List.cons_append, List.nil_append, readFrom, if_neg (by decide), if_pos rfl, later]
    rfl

theorem read_literals_quoted (tokens : List Text) :
    readLiterals ([' '].intercalate (tokens.map quoteToken)) = some tokens := by
  cases tokens with
  | nil => rfl
  | cons token tokens =>
    have read := read_quoted token tokens
    unfold readLiterals
    rw [if_neg, read]
    intro empty
    rw [List.isEmpty_iff.mp empty] at read
    cases read

/-- The quotes that no backslash stands before. -/
def bareQuotes : Text → Nat
  | [] => 0
  | '\\' :: '"' :: rest => bareQuotes rest
  | char :: rest => (if char = '"' then 1 else 0) + bareQuotes rest

variable (userInput : Text)

theorem count_unescaped : (replace ['\\', '"'] ['"', '"'] userInput).count '"' % 2 = bareQuotes userInput % 2 := by
  induction userInput using replace_induction ['\\', '"'] (List.cons_ne_nil _ _) with
  | empty => rfl
  | found rest ih =>
    rw [replace_found _ (List.cons_ne_nil _ _), List.count_append]
    change (2 + _) % 2 = bareQuotes rest % 2
    omega
  | passed char rest differs ih =>
    rw [replace_passed _ differs, List.count_cons]
    have step : bareQuotes (char :: rest) = (if char = '"' then 1 else 0) + bareQuotes rest := by
      rw [bareQuotes]
      intro later isBackslash same
      apply differs
      rw [isBackslash, same]
      exact List.prefix_append ['\\', '"'] later
    rw [step]
    by_cases quote : char = '"'
    · simp only [quote, beq_self_eq_true, if_true]
      omega
    · simp only [quote, beq_iff_eq, if_false]
      omega

theorem after_replace {pattern : Text} (replacement : Text) (nonempty : pattern ≠ [])
    (alike : ∀ gap : Gap, gap.after replacement = gap.after pattern) (gap : Gap) (text : Text) :
    gap.after (replace pattern replacement text) = gap.after text :=
  foldlM_replace replacement Gap.step nonempty alike text gap

theorem wordless_shell_line : Wordless (shellLine userInput) ↔
      Wordless userInput ∧ (bareQuotes userInput % 2 = 0 ∨ EndsInComment userInput) := by
  have unescaped (gap : Gap) := after_replace ['"', '"'] (List.cons_ne_nil '\\' ['"'])
    (by intro gap; cases gap <;> rfl) gap userInput
  unfold Wordless EndsBlank EndsInComment shellLine
  dsimp only
  rw [after_replace ['\\', '"'] (List.cons_ne_nil '"' ['"']) (by intro gap; cases gap <;> rfl),
    after_replace ['\\', '\''] (List.cons_ne_nil '\'' []) (by intro gap; cases gap <;> rfl),
    count_unescaped]
  by_cases even : bareQuotes userInput % 2 = 0
  · rw [if_pos even, unescaped]
    exact (and_iff_left (.inl even)).symm
  · rw [if_neg even, Gap.after_append, unescaped]
    -- the quote that is added begins a word, unless a comment is still open
    cases ends : Gap.blank.after userInput with
    | none => simp
    | some gap => cases gap <;> simp [even, Gap.step, Gap.after, Shell.isBlank]

def isVisible (char : Char) : Bool := !isWhitespace char

theorem shell_line_visible {userInput : Text} (visible : userInput.any isVisible = true) :
    (shellLine userInput).any isVisible = true := by
  have unescaped := any_replace ['"', '"'] isVisible (List.cons_ne_nil '\\' ['"']) (by decide) visible
  unfold shellLine
  apply any_replace _ _ (List.cons_ne_nil '"' ['"']) (by decide)
  apply any_replace _ _ (List.cons_ne_nil '\'' []) (by decide)
  split
  · exact unescaped
  · rw [List.any_append, unescaped, Bool.true_or]

section

variable {shellSplit : Text → Option (List Text)}

theorem tokens_eq_nil (splits : ∀ text, shellSplit text = some [] ↔ Wordless text) {working : Text}
    (visible : working.any isVisible = true) : tokensOf shellSplit working = [] ↔ Wordless working := by
  unfold tokensOf
  rw [← splits]
  cases words : shellSplit working with
  | some words => rw [Option.getD_some, Option.some.injEq]
  | none =>
    apply iff_of_false _ nofun
    rw [Option.getD_none, split_whitespace_eq_nil]
    obtain ⟨char, member, shown⟩ := List.any_eq_true.mp visible
    intro blank
    rw [isVisible, blank char member] at shown
    cases shown

theorem read_escaped : readLiterals (parseAndEscapeQuery shellSplit userInput) =
      some (tokensOf shellSplit (shellLine userInput)) :=
  read_literals_quoted _

/-- No literal is left of a wordless query whose last comment hides a missing quote. -/
theorem escaped_tokens_eq_nil (splits : ∀ text, shellSplit text = some [] ↔ Wordless text)
    {userInput : Text} (visible : userInput.any isVisible = true) : tokensOf shellSplit (shellLine userInput) = [] ↔
      Wordless userInput ∧ (bareQuotes userInput % 2 = 0 ∨ EndsInComment userInput) :=
  (tokens_eq_nil splits (shell_line_visible visible)).trans (wordless_shell_line userInput)

/-- The escaped query is made of string literals and nothing else. There is at least one exactly
when the query has a word for the shell, or its bare quotes are odd outside a comment. -/
theorem escaped_query_literals_iff (splits : ∀ text, shellSplit text = some [] ↔ Wordless text)
    (userInput : Text) (visible : userInput.any isVisible = true) :
    (readLiterals (parseAndEscapeQuery shellSplit userInput)).isSome = true ∧
      ((∃ literals, literals ≠ [] ∧
          readLiterals (parseAndEscapeQuery shellSplit userInput) = some literals) ↔
        ¬(Wordless userInput ∧ (bareQuotes userInput % 2 = 0 ∨ EndsInComment userInput))) := by
  rw [read_escaped, ← escaped_tokens_eq_nil splits visible]
  constructor
  · rfl
  · constructor
    · rintro ⟨literals, nonempty, same⟩
      cases same
      exact nonempty
    · intro nonempty
      exact ⟨_, nonempty, rfl⟩

end

/-- A query that is one comment, though its quotes are balanced. -/
theorem comment_query_escapes_to_nothing :
    parseAndEscapeQuery split ['#', ' ', 'f', 'o', 'o'] = [] ∧
      ¬∀ userInput, userInput.any isVisible = true → ∃ literals, literals ≠ [] ∧
        readLiterals (parseAndEscapeQuery split userInput) = some literals := by
  constructor
  · decide
  · intro literal
    obtain ⟨literals, nonempty, same⟩ := literal ['#', ' ', 'f', 'o', 'o'] (by decide)
    have none : readLiterals (parseAndEscapeQuery split ['#', ' ', 'f', 'o', 'o']) = some [] := by decide
    rw [none] at same
    exact nonempty (Option.some.inj same).symm

/-- Two words, the second with quotes inside, become two literals. -/
theorem quoted_words_literals :
    (readLiterals (parseAndEscapeQuery split ['a', ' ', 'b', '\\', '"', 'c'])).isSome = true ∧
      ((∃ literals, literals ≠ [] ∧
          readLiterals (parseAndEscapeQuery split ['a', ' ', 'b', '\\', '"', 'c']) = some literals) ↔
        ¬(Wordless ['a', ' ', 'b', '\\', '"', 'c'] ∧
          (bareQuotes ['a', ' ', 'b', '\\', '"', 'c'] % 2 = 0 ∨
            EndsInComment ['a', ' ', 'b', '\\', '"', 'c']))) :=
  escaped_query_literals_iff split_eq_nil_iff ['a', ' ', 'b', '\\', '"', 'c'] (by decide)

end Panoptikon.Pql
