import Panoptikon.Foundation.TextEdits

/-!
# Words of a shell line

POSIX word splitting: words stand between blanks, quotes and backslashes take
the meaning off what follows them, and a `#` where a word could begin starts a
comment up to the end of the line. A line is wordless when it is made of
blanks, line continuations and comments.
-/

namespace Foundation

namespace Shell

def isBlank (char : Char) : Bool := char = ' ' || char = '\t' || char = '\n'

inductive Gap where
  | blank
  /-- After a backslash that a line feed may follow. -/
  | continuation
  | comment
deriving DecidableEq, Repr

/-- Where a character leads between two words, unless a word begins with it. -/
def Gap.step : Gap → Char → Option Gap
  | .blank, char =>
      if isBlank char then some .blank
      else if char = '#' then some .comment
      else if char = '\\' then some .continuation
      else none
  | .continuation, char => if char = '\n' then some .blank else none
  | .comment, char => if char = '\n' then some .blank else some .comment

def Gap.after (gap : Gap) (text : Text) : Option Gap := text.foldlM Gap.step gap

theorem Gap.after_cons (gap : Gap) (char : Char) (rest : Text) :
    gap.after (char :: rest) = (gap.step char).bind fun next => next.after rest := by
  unfold Gap.after
  rw [List.foldlM_cons]
  rfl

theorem Gap.after_append (gap : Gap) (first second : Text) :
    gap.after (first ++ second) = (gap.after first).bind fun next => next.after second := by
  unfold Gap.after
  rw [List.foldlM_append]
  rfl

/-- No word begins in the text and no comment is left open. -/
def EndsBlank (text : Text) : Prop := Gap.blank.after text = some .blank

/-- No word begins in the text, and it ends inside a comment. -/
def EndsInComment (text : Text) : Prop := Gap.blank.after text = some .comment

def Wordless (text : Text) : Prop := EndsBlank text ∨ EndsInComment text

instance (text : Text) : Decidable (EndsBlank text) := inferInstanceAs (Decidable (_ = _))

instance (text : Text) : Decidable (EndsInComment text) := inferInstanceAs (Decidable (_ = _))

instance (text : Text) : Decidable (Wordless text) := inferInstanceAs (Decidable (_ ∨ _))

inductive State where
  | delimiter
  | backslash
  | unquoted
  | unquotedBackslash
  | singleQuoted
  | doubleQuoted
  | doubleQuotedBackslash
  | comment
deriving DecidableEq, Repr

/-- What a backslash inside double quotes takes the meaning off. -/
def isEscapable (char : Char) : Bool := char = '$' || char = '\x60' || char = '"' || char = '\\'

/-- The words from a state on, the first of which begins with `word`; none when a quote stays open. -/
def splitFrom : State → Text → Text → Option (List Text)
  | .delimiter, _, [] => some []
  | .delimiter, word, char :: rest =>
      if isBlank char then splitFrom .delimiter word rest
      else if char = '#' then splitFrom .comment word rest
      else if char = '\\' then splitFrom .backslash word rest
      else if char = '\'' then splitFrom .singleQuoted word rest
      else if char = '"' then splitFrom .doubleQuoted word rest
      else splitFrom .unquoted (word ++ [char]) rest
  | .backslash, word, [] => some [word ++ ['\\']]
  | .backslash, word, char :: rest =>
      if char = '\n' then splitFrom .delimiter word rest else splitFrom .unquoted (word ++ [char]) rest
  | .unquoted, word, [] => some [word]
  | .unquoted, word, char :: rest =>
      if isBlank char then (splitFrom .delimiter [] rest).map (word :: ·)
      else if char = '\\' then splitFrom .unquotedBackslash word rest
      else if char = '\'' then splitFrom .singleQuoted word rest
      else if char = '"' then splitFrom .doubleQuoted word rest
      else splitFrom .unquoted (word ++ [char]) rest
  | .unquotedBackslash, word, [] => some [word ++ ['\\']]
  | .unquotedBackslash, word, char :: rest =>
      if char = '\n' then splitFrom .unquoted word rest else splitFrom .unquoted (word ++ [char]) rest
  | .singleQuoted, _, [] => none
  | .singleQuoted, word, char :: rest =>
      if char = '\'' then splitFrom .unquoted word rest else splitFrom .singleQuoted (word ++ [char]) rest
  | .doubleQuoted, _, [] => none
  | .doubleQuoted, word, char :: rest =>
      if char = '"' then splitFrom .unquoted word rest
      else if char = '\\' then splitFrom .doubleQuotedBackslash word rest
      else splitFrom .doubleQuoted (word ++ [char]) rest
  | .doubleQuotedBackslash, _, [] => none
  | .doubleQuotedBackslash, word, char :: rest =>
      if char = '\n' then splitFrom .doubleQuoted word rest
      else if isEscapable char then splitFrom .doubleQuoted (word ++ [char]) rest
      else splitFrom .doubleQuoted (word ++ ['\\', char]) rest
  | .comment, _, [] => some []
  | .comment, word, char :: rest =>
      if char = '\n' then splitFrom .delimiter word rest else splitFrom .comment word rest

def split (text : Text) : Option (List Text) := splitFrom .delimiter [] text

/-- Inside a word. -/
def State.begun : State → Bool
  | .unquoted | .unquotedBackslash | .singleQuoted | .doubleQuoted | .doubleQuotedBackslash => true
  | .delimiter | .backslash | .comment => false

theorem split_from_begun {state : State} {word text : Text} (begun : state.begun = true) :
    splitFrom state word text ≠ some [] := by
  induction text generalizing state word with
  | nil => cases state <;> simp_all [State.begun, splitFrom]
  | cons char rest ih =>
    cases state with
    | delimiter | backslash | comment => cases begun
    | unquoted =>
      unfold splitFrom
      split_ifs
      · simp
      all_goals exact ih rfl
    | unquotedBackslash | singleQuoted | doubleQuoted | doubleQuotedBackslash =>
      unfold splitFrom
      split_ifs
      all_goals exact ih rfl

/-- The state of the splitter in each gap. -/
def Gap.state : Gap → State
  | .blank => .delimiter
  | .continuation => .backslash
  | .comment => .comment

theorem split_from_gap (gap : Gap) (word text : Text) : splitFrom gap.state word text = some [] ↔
      gap.after text = some .blank ∨ gap.after text = some .comment := by
  induction text generalizing gap with
  | nil => cases gap <;> simp [Gap.state, splitFrom, Gap.after]
  | cons char rest ih =>
    rw [Gap.after_cons]
    cases gap with
    | blank =>
      simp only [Gap.state, splitFrom, Gap.step]
      split_ifs
      · exact ih .blank
      · exact ih .comment
      · exact ih .continuation
      all_goals exact iff_of_false (split_from_begun rfl) (by rintro (ends | ends) <;> cases ends)
    | continuation =>
      simp only [Gap.state, splitFrom, Gap.step]
      split_ifs
      · exact ih .blank
      · exact iff_of_false (split_from_begun rfl) (by rintro (ends | ends) <;> cases ends)
    | comment =>
      simp only [Gap.state, splitFrom, Gap.step]
      split_ifs
      · exact ih .blank
      · exact ih .comment

theorem split_eq_nil_iff (text : Text) : split text = some [] ↔ Wordless text :=
  split_from_gap .blank [] text

end Shell

end Foundation
