import Panoptikon.Config.DotenvLines

/-!
# What an edit does to every reader

The editor and the parser take the same lines from a file. After an edit the
parser reads the values asked for, unless a line that only the parser
understands stands in the way: `export` followed by blanks, or an assignment
after a byte order mark on the first line that is left.
-/

namespace Panoptikon.Config

open Foundation Foundation.Text

/-- What the first line assigns after a byte order mark. -/
def exposed (rows : List Text) : Option (Text × Text) :=
  rows.head?.bind fun first => (stripPrefix [byteOrderMark] first).bind reads

/-- What the lines of a file assign. -/
def assignments (rows : List Text) : List (Text × Text) := (exposed rows).toList ++ rows.filterMap reads

theorem add_values (parsed : DotenvParse) (reading : LineReading) :
    (parsed.add reading).values = parsed.values ++ reading.pair.toList := by
  cases reading <;> simp [DotenvParse.add, LineReading.pair]

theorem values_of_lines (rows : List Text) (index : Nat) (parsed : DotenvParse) :
    ((rows.zipIdx index).foldl (fun parsed line => parsed.add (readDotenvLine line.2 line.1)) parsed).values =
      parsed.values ++ rows.filterMap reads := by
  induction rows generalizing index parsed with
  | nil => simp
  | cons row rest ih =>
    rw [List.zipIdx_cons, List.foldl_cons, ih, add_values, reading_pair, List.filterMap_cons, List.append_assoc]
    cases reads row <;> rfl

theorem reads_nil : reads [] = none := reads_without_equals List.not_mem_nil

theorem lines_marked (rest : Text) :
    (lines rest).filterMap reads = assignments (lines (byteOrderMark :: rest)) := by
  have unfed : byteOrderMark ≠ '\n' := by decide
  have kept (line : Text) : stripReturn (byteOrderMark :: line) = byteOrderMark :: stripReturn line :=
    strip_return_cons fun _ => by decide
  have stripped (line : Text) : stripPrefix [byteOrderMark] (byteOrderMark :: line) = some line :=
    strip_prefix_append [byteOrderMark] line
  unfold lines assignments exposed
  rw [split_on_other_cons unfed]
  cases pieces : rest.splitOn '\n' with
  | nil => exact absurd pieces (split_on_feed_ne_nil rest)
  | cons first others =>
    cases others with
    | nil =>
      cases first with
      | nil => simp [stripped, reads_nil, (marked_unnamed []).1]
      | cons char later =>
        simp only [List.modifyHead_cons, List.dropLast_singleton, List.map_nil, List.nil_append,
          List.getLast?_singleton, Option.toList_some, List.isEmpty_cons, Bool.not_false, List.filter_cons_of_pos,
          List.filter_nil, List.head?_cons, Option.bind_some, stripped, List.filterMap_cons, List.filterMap_nil,
          (marked_unnamed (char :: later)).1]
        cases reads (char :: later) <;> rfl
    | cons second later =>
      simp only [List.modifyHead_cons, List.dropLast_cons_cons, List.map_cons, List.cons_append,
        List.head?_cons, Option.bind_some, kept, stripped, List.filterMap_cons, (marked_unnamed (stripReturn first)).1,
        List.getLast?_cons_cons]
      cases reads (stripReturn first) <;> rfl

theorem parse_values (source : Text) : (parseDotenv source).values = assignments (lines source) := by
  have plain : (parseDotenv source).values =
      (lines ((stripPrefix [byteOrderMark] source).getD source)).filterMap reads := values_of_lines _ 0 ⟨[], []⟩
  rw [plain]
  cases stripped : stripPrefix [byteOrderMark] source with
  | some rest =>
    rw [strip_prefix_eq_some.mp stripped]
    exact lines_marked rest
  | none =>
    have unmarked : exposed (lines source) = none := by
      unfold exposed
      cases isFirst : (lines source).head? with
      | none => rfl
      | some first =>
        rw [Option.bind_some]
        cases marked : stripPrefix [byteOrderMark] first with
        | none => rfl
        | some line =>
          obtain ⟨later, split⟩ := first_line_prefix isFirst
          rw [← split, strip_prefix_eq_some.mp marked, List.append_assoc, strip_prefix_append] at stripped
          cases stripped
    unfold assignments
    rw [unmarked]
    rfl

theorem parse_lines (source : Text) : (DotenvDocument.parse source).lines = lines source :=
  lines_normalized source

def valueOf (key line : Text) : Option Text :=
  (reads line).bind fun pair => if pair.1 = key then some pair.2 else none

/-- The values that the lines give the name, in their order. -/
def valuesOf (key : Text) (rows : List Text) : List Text := rows.filterMap (valueOf key)

theorem values_of_append (key : Text) (first second : List Text) :
    valuesOf key (first ++ second) = valuesOf key first ++ valuesOf key second := List.filterMap_append

theorem values_of_cons (key line : Text) (rest : List Text) :
    valuesOf key (line :: rest) = (valueOf key line).toList ++ valuesOf key rest := by
  unfold valuesOf
  rw [List.filterMap_cons]
  cases valueOf key line <;> rfl

theorem value_of_other {key line name : Text} (named : nameOf line = some name) (other : name ≠ key) :
    valueOf key line = none := by
  unfold valueOf
  cases isRead : reads line with
  | none => rfl
  | some pair =>
    have same := named_if_read isRead
    rw [named] at same
    exact if_neg fun isKey => other ((Option.some.inj same).trans isKey)

theorem value_of_eq_some {key line value : Text} :
    valueOf key line = some value ↔ reads line = some (key, value) := by
  unfold valueOf
  cases isRead : reads line with
  | none => simp
  | some pair =>
    obtain ⟨name, found⟩ := pair
    by_cases same : name = key
    · simp [same]
    · simp [same]

theorem last_wins_append (first second : List (Text × Text)) (key : Text) :
    lastWins (first ++ second) key = (lastWins second key).or (lastWins first key) := by
  unfold lastWins
  rw [List.reverse_append, List.lookup_append]

theorem last_wins_values (rows : List Text) (key : Text) :
    lastWins (rows.filterMap reads) key = (valuesOf key rows).getLast? := by
  induction rows using List.reverseRecOn with
  | nil => rfl
  | append_singleton front line ih =>
    rw [List.filterMap_append, last_wins_append, values_of_append, ih, values_of_cons]
    unfold valueOf
    cases isRead : reads line with
    | none => simp [valuesOf, isRead, lastWins]
    | some pair =>
      have single : lastWins ([line].filterMap reads) key = if pair.1 = key then some pair.2 else none := by
        unfold lastWins
        rw [List.filterMap_cons, isRead, List.filterMap_nil, List.reverse_singleton, List.lookup_cons]
        by_cases same : pair.1 = key
        · rw [if_pos same, same, beq_self_eq_true]
        · rw [if_neg same, beq_eq_false_iff_ne.mpr fun isKey => same isKey.symm]
          rfl
      rw [single]
      by_cases same : pair.1 = key
      · simp [same, valuesOf]
      · simp [same, valuesOf]

/-- Values that only the parser sees. -/
def hiddenValues (key : Text) (rows : List Text) : List Text :=
  valuesOf key (rows.filter fun line => (editedKey line).isNone)

theorem hidden_values_cons (key line : Text) (rest : List Text) : hiddenValues key (line :: rest) =
      (if (editedKey line).isNone then (valueOf key line).toList else []) ++ hiddenValues key rest := by
  unfold hiddenValues
  rw [List.filter_cons]
  split_ifs
  · rw [values_of_cons]
  · rfl

/-- Where the editor finds another name or none, the parser reads the name only if it is hidden. -/
theorem visible_values_cons {key line : Text} (rest : List Text) (unseen : editedKey line ≠ some key) :
    hiddenValues key (line :: rest) = (valueOf key line).toList ++ hiddenValues key rest := by
  rw [hidden_values_cons]
  cases found : editedKey line with
  | none => rfl
  | some name =>
    have other : name ≠ key := fun same => unseen (found.trans (congrArg some same))
    rw [value_of_other (named_if_edited found) other]
    rfl

section Retained

variable (values : EnvValues) (remove : List Text)

/-- What becomes of a line: it is kept, dropped, or rewritten. -/
inductive Fate (written : List Text) (line : Text) : Option Text → List Text → Prop where
  | unseen (isNone : dotenvAssignment line = none) : Fate written line (some line) written
  | removed (assignment : DotenvAssignment) (found : dotenvAssignment line = some assignment)
      (isRemoved : assignment.key ∈ remove) : Fate written line none written
  | unchanged (assignment : DotenvAssignment) (found : dotenvAssignment line = some assignment)
      (kept : assignment.key ∉ remove) (absent : values.get assignment.key = none) :
      Fate written line (some line) written
  | repeated (assignment : DotenvAssignment) (found : dotenvAssignment line = some assignment)
      (kept : assignment.key ∉ remove) (given : values.get assignment.key ≠ none)
      (isWritten : assignment.key ∈ written) : Fate written line none written
  | rewritten (assignment : DotenvAssignment) (value : Text) (found : dotenvAssignment line = some assignment)
      (kept : assignment.key ∉ remove) (given : values.get assignment.key = some value)
      (fresh : assignment.key ∉ written) :
      Fate written line (some (DotenvDocument.rewrite line assignment value)) (assignment.key :: written)

theorem retain_cons (written : List Text) (line : Text) (rest : List Text) :
    ∃ left after, Fate values remove written line left after ∧
      DotenvDocument.retainLines values remove written (line :: rest) =
        (left.toList ++ (DotenvDocument.retainLines values remove after rest).1,
          (DotenvDocument.retainLines values remove after rest).2) := by
  rw [DotenvDocument.retainLines]
  cases found : dotenvAssignment line with
  | none => exact ⟨some line, written, .unseen found, rfl⟩
  | some assignment =>
    dsimp only
    by_cases isRemoved : assignment.key ∈ remove
    · rw [if_pos isRemoved]
      exact ⟨none, written, .removed assignment found isRemoved, rfl⟩
    rw [if_neg isRemoved]
    cases given : values.get assignment.key with
    | none => exact ⟨some line, written, .unchanged assignment found isRemoved given, rfl⟩
    | some value =>
      dsimp only
      by_cases isWritten : assignment.key ∈ written
      · rw [if_pos isWritten]
        exact ⟨none, written, .repeated assignment found isRemoved (by rw [given]; exact Option.some_ne_none value)
          isWritten, rfl⟩
      · rw [if_neg isWritten]
        exact ⟨_, _, .rewritten assignment value found isRemoved given isWritten, rfl⟩

variable {values remove}

variable {key : Text}

theorem retained_unedited (kept : key ∉ remove) (absent : values.get key = none)
    (written : List Text) (rows : List Text) :
    valuesOf key (DotenvDocument.retainLines values remove written rows).1 = valuesOf key rows := by
  induction rows generalizing written with
  | nil => rfl
  | cons line rest ih =>
    obtain ⟨left, after, fate, same⟩ := retain_cons values remove written line rest
    rw [same, values_of_append, values_of_cons, ih]
    apply congrArg (· ++ valuesOf key rest)
    cases fate with
    | unseen | unchanged => exact (values_of_cons key line []).trans (List.append_nil _)
    | removed assignment found isRemoved =>
      have named := named_if_edited (edited_key_of_assignment found)
      have other : assignment.key ≠ key := fun isKey => kept (isKey ▸ isRemoved)
      rw [value_of_other named other]
      rfl
    | repeated assignment found _ given =>
      have named := named_if_edited (edited_key_of_assignment found)
      have other : assignment.key ≠ key := fun isKey => given (isKey ▸ absent)
      rw [value_of_other named other]
      rfl
    | rewritten assignment value found _ given =>
      have other : assignment.key ≠ key := fun isKey => by
        rw [isKey, absent] at given
        cases given
      have named := named_if_edited (edited_key_of_assignment found)
      have renamed := named_if_edited (reads_rewritten value found).2
      rw [Option.toList_some, values_of_cons, value_of_other renamed other, value_of_other named other]
      rfl

variable {written : List Text}

theorem retained_blocked (blocked : key ∈ remove ∨ values.get key ≠ none ∧ key ∈ written) (rows : List Text) :
    valuesOf key (DotenvDocument.retainLines values remove written rows).1 = hiddenValues key rows := by
  induction rows generalizing written with
  | nil => rfl
  | cons line rest ih =>
    obtain ⟨left, after, fate, same⟩ := retain_cons values remove written line rest
    have still : key ∈ remove ∨ values.get key ≠ none ∧ key ∈ after := by
      cases fate with
      | rewritten assignment => exact blocked.imp_right (And.imp_right (List.mem_cons_of_mem assignment.key))
      | unseen | removed | unchanged | repeated => exact blocked
    rw [same, values_of_append, hidden_values_cons, ih still]
    apply congrArg (· ++ hiddenValues key rest)
    cases fate with
    | unseen isNone =>
      rw [editedKey, isNone, Option.map_none, Option.isNone_none, if_pos rfl, Option.toList_some, values_of_cons]
      exact List.append_nil _
    | removed assignment found =>
      rw [edited_key_of_assignment found]
      rfl
    | repeated assignment found =>
      rw [edited_key_of_assignment found]
      rfl
    | unchanged assignment found kept absent =>
      have named := named_if_edited (edited_key_of_assignment found)
      have other : assignment.key ≠ key := by
        rintro rfl
        rcases blocked with isRemoved | ⟨given, -⟩
        · exact kept isRemoved
        · exact given absent
      rw [edited_key_of_assignment found, Option.toList_some, values_of_cons, value_of_other named other]
      rfl
    | rewritten assignment value found kept given fresh =>
      have other : assignment.key ≠ key := by
        rintro rfl
        rcases blocked with isRemoved | ⟨-, isWritten⟩
        · exact kept isRemoved
        · exact fresh isWritten
      have renamed := named_if_edited (reads_rewritten value found).2
      rw [edited_key_of_assignment found, Option.toList_some, values_of_cons, value_of_other renamed other]
      rfl

/-- A line on which the editor does not find the name keeps its value of it. -/
theorem Fate.passes {key line : Text} {written after : List Text} {left : Option Text}
    (fate : Fate values remove written line left after) (notHere : editedKey line ≠ some key) :
    valuesOf key left.toList = (valueOf key line).toList ∧ (key ∈ after ↔ key ∈ written) := by
  have other {assignment : DotenvAssignment} (found : dotenvAssignment line = some assignment) :
      assignment.key ≠ key := by
    rintro rfl
    exact notHere (edited_key_of_assignment found)
  cases fate with
  | unseen | unchanged => exact ⟨(values_of_cons key line []).trans (List.append_nil _), Iff.rfl⟩
  | removed assignment found | repeated assignment found =>
    rw [value_of_other (named_if_edited (edited_key_of_assignment found)) (other found)]
    exact ⟨rfl, Iff.rfl⟩
  | rewritten assignment value found =>
    constructor
    · rw [Option.toList_some, values_of_cons,
        value_of_other (named_if_edited (reads_rewritten value found).2) (other found),
        value_of_other (named_if_edited (edited_key_of_assignment found)) (other found)]
      rfl
    · rw [List.mem_cons]
      exact or_iff_right fun isKey => other found isKey.symm

theorem retained_unseen (fresh : key ∉ written) {rows : List Text}
    (unseen : ∀ line ∈ rows, editedKey line ≠ some key) :
    valuesOf key (DotenvDocument.retainLines values remove written rows).1 = hiddenValues key rows ∧
      key ∉ (DotenvDocument.retainLines values remove written rows).2 := by
  induction rows generalizing written with
  | nil => exact ⟨rfl, fresh⟩
  | cons line rest ih =>
    obtain ⟨left, after, fate, same⟩ := retain_cons values remove written line rest
    have notHere := unseen line List.mem_cons_self
    obtain ⟨kept, still⟩ := fate.passes notHere
    obtain ⟨others, notWritten⟩ := ih (fun inAfter => fresh (still.mp inAfter)) fun later member =>
      unseen later (List.mem_cons_of_mem line member)
    rw [same]
    refine ⟨?_, notWritten⟩
    rw [values_of_append, visible_values_cons rest notHere, others, kept]

theorem written_kept (member : key ∈ written) (rows : List Text) :
    key ∈ (DotenvDocument.retainLines values remove written rows).2 := by
  induction rows generalizing written with
  | nil => exact member
  | cons line rest ih =>
    obtain ⟨left, after, fate, same⟩ := retain_cons values remove written line rest
    rw [same]
    apply ih
    cases fate with
    | rewritten assignment => exact List.mem_cons_of_mem assignment.key member
    | unseen | removed | unchanged | repeated => exact member

theorem retained_given {key value line : Text} (kept : key ∉ remove) (given : values.get key = some value)
    (fresh : key ∉ written) {before : List Text} (after : List Text)
    (first : ∀ earlier ∈ before, editedKey earlier ≠ some key) (found : editedKey line = some key) :
    valuesOf key (DotenvDocument.retainLines values remove written (before ++ line :: after)).1 =
        hiddenValues key before ++ value :: hiddenValues key after ∧
      key ∈ (DotenvDocument.retainLines values remove written (before ++ line :: after)).2 := by
  induction before generalizing written with
  | nil =>
    obtain ⟨left, later, fate, same⟩ := retain_cons values remove written line after
    rw [List.nil_append, same]
    have isKey {assignment : DotenvAssignment} (isFound : dotenvAssignment line = some assignment) :
        assignment.key = key := by
      rw [edited_key_of_assignment isFound] at found
      exact Option.some.inj found
    cases fate with
    | unseen isNone =>
      rw [editedKey, isNone] at found
      cases found
    | removed assignment isFound isRemoved => exact absurd (isKey isFound ▸ isRemoved) kept
    | unchanged assignment isFound _ absent =>
      rw [isKey isFound, given] at absent
      cases absent
    | repeated assignment isFound _ _ isWritten => exact absurd (isKey isFound ▸ isWritten) fresh
    | rewritten assignment other isFound _ isGiven =>
      have written_ : key ∈ assignment.key :: written := by
        rw [isKey isFound]
        exact List.mem_cons_self
      have isSome : values.get key ≠ none := by
        rw [given]
        exact Option.some_ne_none value
      have isValue : other = value := by
        rw [isKey isFound, given] at isGiven
        exact (Option.some.inj isGiven).symm
      have reading := (reads_rewritten other isFound).1
      rw [isKey isFound] at reading
      refine ⟨?_, written_kept written_ after⟩
      rw [Option.toList_some, values_of_append, values_of_cons, value_of_eq_some.mpr reading,
        retained_blocked (.inr ⟨isSome, written_⟩), isValue]
      rfl
  | cons earlier rest ih =>
    obtain ⟨left, later, fate, same⟩ := retain_cons values remove written earlier (rest ++ line :: after)
    have notHere := first earlier List.mem_cons_self
    obtain ⟨passed, still⟩ := fate.passes notHere
    obtain ⟨others, isWritten⟩ := ih (fun inLater => fresh (still.mp inLater)) fun row member =>
      first row (List.mem_cons_of_mem earlier member)
    rw [List.cons_append, same]
    refine ⟨?_, isWritten⟩
    rw [values_of_append, visible_values_cons rest notHere, others, passed, List.append_assoc]

end Retained

section Appended

variable {remove : List Text}

theorem appended_values (key : Text) {entries : List (Text × Text)} (distinct : (entries.map Prod.fst).Nodup)
    (valid : ∀ entry ∈ entries, isEnvName entry.1 = true) (state : List Text × List Text) :
    valuesOf key (entries.foldl (DotenvDocument.appendMissing remove) state).1 =
      valuesOf key state.1 ++ if key ∉ remove ∧ key ∉ state.2 then (entries.lookup key).toList else [] := by
  induction entries generalizing state with
  | nil => simp
  | cons entry rest ih =>
    rw [List.map_cons, List.nodup_cons] at distinct
    rw [List.foldl_cons, ih distinct.2 fun later member => valid later (List.mem_cons_of_mem entry member)]
    have reading := (reads_appended entry.2 (valid entry List.mem_cons_self)).1
    have named := named_if_read reading
    unfold DotenvDocument.appendMissing
    rw [List.lookup_cons]
    by_cases isKey : entry.1 = key
    · rw [← isKey, beq_self_eq_true]
      by_cases appended : entry.1 ∉ remove ∧ entry.1 ∉ state.2
      · rw [if_pos appended, if_pos appended, if_neg fun both => both.2 List.mem_cons_self, values_of_append,
          values_of_cons, value_of_eq_some.mpr reading, List.append_nil]
        rfl
      · rw [if_neg appended, if_neg appended, if_neg appended]
    · rw [beq_eq_false_iff_ne.mpr fun same => isKey same.symm]
      by_cases appended : entry.1 ∉ remove ∧ entry.1 ∉ state.2
      · have still : (key ∉ remove ∧ key ∉ entry.1 :: state.2) ↔ (key ∉ remove ∧ key ∉ state.2) := by
          apply and_congr_right
          intro _
          rw [List.mem_cons, not_or]
          exact and_iff_right fun same => isKey same.symm
        rw [if_pos appended, values_of_append, values_of_cons, value_of_other named isKey]
        dsimp only
        rw [if_congr still rfl rfl]
        simp [valuesOf]
      · rw [if_neg appended]

variable (remove) in
theorem appended_lines (entries : List (Text × Text)) (state : List Text × List Text) :
    ∃ more, (entries.foldl (DotenvDocument.appendMissing remove) state).1 = state.1 ++ more ∧
      ∀ line ∈ more, ∃ entry ∈ entries, line = entry.1 ++ '=' :: encodeDotenvValue entry.2 := by
  induction entries generalizing state with
  | nil => exact ⟨[], (List.append_nil _).symm, nofun⟩
  | cons entry rest ih =>
    obtain ⟨more, same, written⟩ := ih (DotenvDocument.appendMissing remove state entry)
    have later {line : Text} (member : line ∈ more) :
        ∃ found ∈ entry :: rest, line = found.1 ++ '=' :: encodeDotenvValue found.2 := by
      obtain ⟨found, isEntry, isLine⟩ := written line member
      exact ⟨found, List.mem_cons_of_mem entry isEntry, isLine⟩
    rw [List.foldl_cons, same]
    unfold DotenvDocument.appendMissing
    by_cases appended : entry.1 ∉ remove ∧ entry.1 ∉ state.2
    · rw [if_pos appended]
      refine ⟨_ :: more, List.append_assoc _ _ _, fun line member => ?_⟩
      rcases List.mem_cons.mp member with isLine | inMore
      · exact ⟨entry, List.mem_cons_self, isLine⟩
      · exact later inMore
    · rw [if_neg appended]
      exact ⟨more, rfl, fun line member => later member⟩

end Appended

def DotenvDocument.edited (source : Text) (values : EnvValues) (remove : List Text) : DotenvDocument :=
  (DotenvDocument.parse source).apply values remove

section Edited

variable {source : Text} {values : EnvValues} {remove : List Text}

theorem edited_lines : (DotenvDocument.edited source values remove).lines =
    (values.entries.foldl (DotenvDocument.appendMissing remove)
      (DotenvDocument.retainLines values remove [] (lines source))).1 := by
  rw [← parse_lines]
  rfl

theorem edited_line_clean {line : Text} (member : line ∈ (DotenvDocument.edited source values remove).lines) :
    '\n' ∉ line := by
  obtain ⟨more, same, written⟩ := appended_lines remove values.entries
    (DotenvDocument.retainLines values remove [] (lines source))
  rw [edited_lines, same, List.mem_append] at member
  rcases member with retained | appended
  · have clean (rows : List Text) (free : ∀ row ∈ rows, '\n' ∉ row) (names : List Text) :
        ∀ row ∈ (DotenvDocument.retainLines values remove names rows).1, '\n' ∉ row := by
      induction rows generalizing names with
      | nil => exact nofun
      | cons row rest ih =>
        obtain ⟨left, after, fate, isSame⟩ := retain_cons values remove names row rest
        rw [isSame]
        intro found isFound
        rcases List.mem_append.mp isFound with isLeft | later
        · have cleanRow := free row List.mem_cons_self
          cases fate with
          | unseen | unchanged =>
            rw [List.mem_singleton.mp isLeft]
            exact cleanRow
          | removed | repeated => cases isLeft
          | rewritten assignment value isAssignment =>
            rw [List.mem_singleton.mp isLeft]
            exact feed_not_in_rewritten value isAssignment cleanRow
        · exact ih (fun other isOther => free other (List.mem_cons_of_mem row isOther)) after found later
    exact clean (lines source) (fun row isRow => feed_not_in_line isRow) [] line retained
  · obtain ⟨entry, isEntry, rfl⟩ := written line appended
    rw [List.mem_append, List.mem_cons]
    rintro (inName | isEquals | inValue)
    · exact not_in_env_name (values.valid entry isEntry) (by decide) inName
    · cases isEquals
    · exact feed_not_in_encoded entry.2 inValue

theorem intercalate_ended (newline : Text) {rows : List Text} (nonempty : rows ≠ []) :
    List.intercalate newline rows ++ newline = rows.flatMap fun row => row ++ newline := by
  induction rows with
  | nil => contradiction
  | cons row rest ih =>
    cases rest with
    | nil => simp [List.intercalate]
    | cons second later =>
      have joined : List.intercalate newline (row :: second :: later) =
          row ++ newline ++ List.intercalate newline (second :: later) := by
        simp [List.intercalate, List.intersperse]
      rw [joined, List.append_assoc, ih (List.cons_ne_nil second later)]
      rfl

theorem reads_ended {ending : Text} (isBlank : Blank ending) (row : Text) :
    reads (stripReturn (row ++ ending)) = reads row := by
  apply reads_of_trim
  rw [trim_strip_return, trim_blank_end isBlank]

theorem exposed_ended {ending : Text} (isBlank : Blank ending) (row : Text) :
    (stripPrefix [byteOrderMark] (stripReturn (row ++ ending))).bind reads =
      (stripPrefix [byteOrderMark] row).bind reads := by
  cases marked : stripPrefix [byteOrderMark] row with
  | some later =>
    have kept : stripReturn (byteOrderMark :: (later ++ ending)) = [byteOrderMark] ++ stripReturn (later ++ ending) :=
      strip_return_cons fun _ => by decide
    rw [strip_prefix_eq_some.mp marked, List.append_assoc, List.singleton_append, kept, strip_prefix_append]
    exact reads_ended isBlank later
  | none =>
    cases found : stripPrefix [byteOrderMark] (stripReturn (row ++ ending)) with
    | none => rfl
    | some later =>
      have starts := strip_prefix_eq_some.mp found
      obtain ⟨rest, -, split⟩ := strip_return_splits (row ++ ending)
      rw [starts, List.append_assoc, List.singleton_append] at split
      cases row with
      | nil =>
        rw [List.nil_append] at split
        have inEnding := isBlank byteOrderMark (by rw [split]; exact List.mem_cons_self)
        exact absurd inEnding (by decide)
      | cons first others =>
        rw [(List.cons.inj split).1] at marked
        have isMarked := strip_prefix_append [byteOrderMark] others
        rw [List.singleton_append, marked] at isMarked
        cases isMarked

/-- The parser takes the lines of an edited file as the editor left them. -/
theorem edited_values : (parseDotenv (DotenvDocument.edited source values remove).toText).values =
    assignments (DotenvDocument.edited source values remove).lines := by
  obtain ⟨ending, isBlank, noFeed, isNewline⟩ : ∃ ending, Blank ending ∧ '\n' ∉ ending ∧
      (DotenvDocument.edited source values remove).newline = ending ++ ['\n'] := by
    unfold DotenvDocument.edited DotenvDocument.apply DotenvDocument.parse
    dsimp only
    split_ifs
    · exact ⟨['\r'], blank_return, by decide, rfl⟩
    · exact ⟨[], blank_nil, by decide, rfl⟩
  rw [parse_values]
  cases rows : (DotenvDocument.edited source values remove).lines with
  | nil =>
    have empty : (DotenvDocument.edited source values remove).toText = [] := by
      unfold DotenvDocument.toText
      rw [rows]
      simp [List.intercalate]
    rw [empty]
    rfl
  | cons first rest =>
    have ended : (DotenvDocument.edited source values remove).trailingNewline = true := by
      unfold DotenvDocument.edited DotenvDocument.apply at rows ⊢
      dsimp only at rows ⊢
      rw [rows]
      rfl
    have written : (DotenvDocument.edited source values remove).toText =
        (first :: rest).flatMap fun row => row ++ (ending ++ ['\n']) := by
      unfold DotenvDocument.toText
      rw [rows, ended, isNewline, ← intercalate_ended _ (List.cons_ne_nil first rest)]
      rfl
    have clean : ∀ row ∈ first :: rest, '\n' ∉ row := by
      intro row member
      rw [← rows] at member
      exact edited_line_clean member
    have same : (fun row => reads (stripReturn (row ++ ending))) = reads := funext (reads_ended isBlank)
    rw [written, lines_of_ended ending noFeed clean]
    unfold assignments exposed
    rw [List.filterMap_map, List.map_cons, List.head?_cons, List.head?_cons, Option.bind_some, Option.bind_some,
      exposed_ended isBlank]
    apply congrArg (Option.toList _ ++ ·)
    exact congrArg (fun reading => (first :: rest).filterMap reading) same

theorem edited_values_of (key : Text) : valuesOf key (DotenvDocument.edited source values remove).lines =
    valuesOf key (DotenvDocument.retainLines values remove [] (lines source)).1 ++
      if key ∉ remove ∧ key ∉ (DotenvDocument.retainLines values remove [] (lines source)).2 then
        (values.get key).toList else [] := by
  rw [edited_lines]
  exact appended_values key values.distinct values.valid _

/-- The editor drops the line, whatever stands before it. -/
def isRemoved (remove : List Text) (line : Text) : Bool := (editedKey line).any remove.contains

theorem unmarked_if_edited {line key : Text} (found : editedKey line = some key) :
    stripPrefix [byteOrderMark] line = none := by
  cases marked : stripPrefix [byteOrderMark] line with
  | none => rfl
  | some rest =>
    rw [strip_prefix_eq_some.mp marked, List.singleton_append, (marked_unnamed rest).2] at found
    cases found

theorem kept_not_removed {line : Text} {assignment : DotenvAssignment}
    (found : dotenvAssignment line = some assignment) (kept : assignment.key ∉ remove) :
    ¬isRemoved remove line = true := by
  rw [isRemoved, edited_key_of_assignment found, Option.any_some]
  exact fun gone => kept (List.contains_iff_mem.mp gone)

variable (values remove) in
theorem exposed_retained (rows : List Text) :
    exposed (DotenvDocument.retainLines values remove [] rows).1 = exposed (rows.dropWhile (isRemoved remove)) ∧
      ((DotenvDocument.retainLines values remove [] rows).1 = [] →
        rows.dropWhile (isRemoved remove) = []) := by
  induction rows with
  | nil => exact ⟨rfl, fun _ => rfl⟩
  | cons line rest ih =>
    obtain ⟨left, after, fate, same⟩ := retain_cons values remove [] line rest
    rw [same]
    cases fate with
    | unseen isNone =>
      have stays : isRemoved remove line = false := by
        rw [isRemoved, editedKey, isNone]
        rfl
      rw [List.dropWhile_cons_of_neg (Bool.eq_false_iff.mp stays)]
      exact ⟨rfl, fun isNil => by cases isNil⟩
    | removed assignment found gone =>
      have leaves : isRemoved remove line = true := by
        rw [isRemoved, edited_key_of_assignment found]
        exact List.contains_iff_mem.mpr gone
      rw [List.dropWhile_cons_of_pos leaves]
      exact ih
    | unchanged assignment found kept =>
      rw [List.dropWhile_cons_of_neg (kept_not_removed found kept)]
      exact ⟨rfl, fun isNil => by cases isNil⟩
    | repeated assignment _ _ _ isWritten => cases isWritten
    | rewritten assignment value found kept =>
      rw [List.dropWhile_cons_of_neg (kept_not_removed found kept)]
      refine ⟨?_, fun isNil => by cases isNil⟩
      unfold exposed
      rw [Option.toList_some, List.singleton_append, List.head?_cons, List.head?_cons, Option.bind_some,
        Option.bind_some, unmarked_if_edited (reads_rewritten value found).2,
        unmarked_if_edited (edited_key_of_assignment found)]

/-- What a byte order mark hides is read when the lines before it are removed. -/
theorem exposed_edited : exposed (DotenvDocument.edited source values remove).lines =
    exposed ((lines source).dropWhile (isRemoved remove)) := by
  obtain ⟨more, same, written⟩ := appended_lines remove values.entries
    (DotenvDocument.retainLines values remove [] (lines source))
  obtain ⟨kept, empty⟩ := exposed_retained values remove (lines source)
  rw [edited_lines, same, ← kept]
  cases left : (DotenvDocument.retainLines values remove [] (lines source)).1 with
  | cons first rest => rfl
  | nil =>
    rw [List.nil_append]
    cases more with
    | nil => rfl
    | cons line others =>
      obtain ⟨entry, isEntry, rfl⟩ := written line List.mem_cons_self
      have found := (reads_appended entry.2 (values.valid entry isEntry)).2
      unfold exposed
      rw [List.head?_cons, Option.bind_some, unmarked_if_edited found]
      rfl

/-- The line assigns no name that is removed or given. -/
def isUntouched (values : EnvValues) (remove : List Text) (line : Text) : Bool :=
  (nameOf line).all fun key => !remove.contains key && (values.get key).isNone

theorem get_of_entry {entry : Text × Text} (isEntry : entry ∈ values.entries) : values.get entry.1 ≠ none := by
  intro absent
  have differs := List.lookup_eq_none_iff.mp absent entry isEntry
  rw [bne_self_eq_false] at differs
  cases differs

variable (values remove) in
theorem touched_if_edited {line key : Text} (found : editedKey line = some key)
    (edited : key ∈ remove ∨ values.get key ≠ none) : isUntouched values remove line = false := by
  unfold isUntouched
  rw [named_if_edited found, Option.all_some, Bool.and_eq_false_iff, Bool.not_eq_false', List.contains_iff_mem,
    Option.isNone_eq_false_iff, Option.isSome_iff_ne_none]
  exact edited

theorem untouched_kept : (DotenvDocument.edited source values remove).lines.filter (isUntouched values remove) =
    (lines source).filter (isUntouched values remove) := by
  obtain ⟨more, same, written⟩ := appended_lines remove values.entries
    (DotenvDocument.retainLines values remove [] (lines source))
  have appended : more.filter (isUntouched values remove) = [] := by
    rw [List.filter_eq_nil_iff]
    intro line member
    obtain ⟨entry, isEntry, rfl⟩ := written line member
    rw [Bool.not_eq_true]
    exact touched_if_edited values remove (reads_appended entry.2 (values.valid entry isEntry)).2
      (.inr (get_of_entry isEntry))
  have retained (rows names : List Text) :
      (DotenvDocument.retainLines values remove names rows).1.filter (isUntouched values remove) =
        rows.filter (isUntouched values remove) := by
    induction rows generalizing names with
    | nil => rfl
    | cons line rest ih =>
      obtain ⟨left, after, fate, isSame⟩ := retain_cons values remove names line rest
      rw [isSame, List.filter_append, ih, ← List.singleton_append, List.filter_append]
      apply congrArg (· ++ rest.filter (isUntouched values remove))
      cases fate with
      | unseen | unchanged => rfl
      | removed assignment found gone =>
        have touched := touched_if_edited values remove (edited_key_of_assignment found) (.inl gone)
        simp [touched]
      | repeated assignment found _ given =>
        have touched := touched_if_edited values remove (edited_key_of_assignment found) (.inr given)
        simp [touched]
      | rewritten assignment value found _ given =>
        have isGiven : values.get assignment.key ≠ none := by
          rw [given]
          exact Option.some_ne_none value
        have touched := touched_if_edited values remove (edited_key_of_assignment found) (.inr isGiven)
        have again := touched_if_edited values remove (reads_rewritten value found).2 (.inr isGiven)
        simp [touched, again]
  rw [edited_lines, same, List.filter_append, appended, List.append_nil, retained]

end Edited

end Panoptikon.Config
