import Panoptikon.Config.DotenvEdits

/-!
# When an edit means what it asks for

Every reader of an edited file finds the values that were asked for, exactly
when no assignment that only the parser sees is in the way.
-/

namespace Panoptikon.Config

open Foundation Foundation.Text

/-- What was asked for: the removed names are gone, the given ones have their values, and nothing
else is changed. -/
structure EditedExactly (source : Text) (values : EnvValues) (remove : List Text) : Prop where
  readers : ∀ key, lastWins (parseDotenv (DotenvDocument.edited source values remove).toText).values key =
    if key ∈ remove then none else (values.get key).or (lastWins (parseDotenv source).values key)
  others : (DotenvDocument.edited source values remove).lines.filter (isUntouched values remove) =
    (DotenvDocument.parse source).lines.filter (isUntouched values remove)

def exportName : Text := "export".toList

/-- No assignment that the editor does not see is in the way of the edit. -/
structure Undisturbed (source : Text) (values : EnvValues) (remove : List Text) : Prop where
  /-- A line of `export` and blanks assigns no name that is removed. -/
  exportRemoved : exportName ∈ remove → ∀ line ∈ lines source, ExportLine line → reads line = none
  /-- Nor, as the last of its kind, one that the editor rewrites on an earlier line. -/
  exportGiven : exportName ∉ remove → ∀ before line after value, lines source = before ++ line :: after →
    ExportLine line → reads line = some (exportName, value) →
    (∀ later ∈ after, ExportLine later → reads later = none) →
    (∃ earlier ∈ before, editedKey earlier = some exportName) →
    values.get exportName = none ∨ values.get exportName = some value
  /-- After a byte order mark the first line that is left assigns no name that is removed, nor one
  that was unassigned before. -/
  marked : ∀ key value, exposed ((lines source).dropWhile (isRemoved remove)) = some (key, value) →
    key ∉ remove ∧ ((lines source).takeWhile (isRemoved remove) = [] ∨ values.get key ≠ none ∨
      ∃ line ∈ lines source, ∃ found, reads line = some (key, found))

section Readers

variable {source : Text} {values : EnvValues} {remove : List Text}

variable {key : Text} {rows : List Text}

theorem values_of_eq_nil :
    valuesOf key rows = [] ↔ ∀ line ∈ rows, ∀ value, reads line ≠ some (key, value) := by
  unfold valuesOf
  rw [List.filterMap_eq_nil_iff]
  apply forall_congr'
  intro line
  apply imp_congr_right
  intro _
  rw [Option.eq_none_iff_forall_ne_some]
  apply forall_congr'
  intro value
  rw [ne_eq, value_of_eq_some]

theorem hidden_line {key value line : Text} : reads line = some (key, value) ∧ editedKey line = none ↔
    key = exportName ∧ ExportLine line ∧ reads line = some (exportName, value) := by
  constructor
  · rintro ⟨isRead, unseen⟩
    obtain ⟨isExport, inLine⟩ := hidden_is_export isRead unseen
    rw [isExport] at isRead
    exact ⟨isExport, inLine, isRead⟩
  · rintro ⟨rfl, inLine, isRead⟩
    exact ⟨isRead, export_unseen inLine⟩

/-- The parser reads nothing but `export` from a line of `export` and blanks. -/
theorem export_reads {line : Text} (inLine : ExportLine line) :
    reads line = none ∨ ∃ value, reads line = some (exportName, value) := by
  cases isRead : reads line with
  | none => exact .inl rfl
  | some pair =>
    obtain ⟨key, value⟩ := pair
    have isExport := (hidden_line.mp ⟨isRead, export_unseen inLine⟩).1
    exact .inr ⟨value, by rw [isExport]⟩

theorem hidden_values_eq_nil :
    hiddenValues key rows = [] ↔ (key = exportName → ∀ line ∈ rows, ExportLine line → reads line = none) := by
  unfold hiddenValues
  rw [values_of_eq_nil]
  constructor
  · rintro none_ rfl line member inLine
    rcases export_reads inLine with isNone | ⟨value, isRead⟩
    · exact isNone
    · have unseen : (editedKey line).isNone = true := Option.isNone_iff_eq_none.mpr (export_unseen inLine)
      exact absurd isRead (none_ line (List.mem_filter.mpr ⟨member, unseen⟩) value)
  · intro none_ line listed value isRead
    obtain ⟨member, unseen⟩ := List.mem_filter.mp listed
    obtain ⟨isExport, inLine, -⟩ := hidden_line.mp ⟨isRead, Option.isNone_iff_eq_none.mp unseen⟩
    rw [none_ isExport line member inLine] at isRead
    cases isRead

/-- The last hidden value of a name stands on the last hidden line that assigns it. -/
theorem hidden_values_last {key value : Text} :
    (hiddenValues key rows).getLast? = some value ↔ ∃ before line after, rows = before ++ line :: after ∧
      reads line = some (key, value) ∧ editedKey line = none ∧ hiddenValues key after = [] := by
  constructor
  · intro last
    induction rows with
    | nil => cases last
    | cons line rest ih =>
      cases later : hiddenValues key rest with
      | nil =>
        rw [hidden_values_cons, later, List.append_nil] at last
        cases unseen : editedKey line with
        | some name =>
          rw [unseen] at last
          cases last
        | none =>
          rw [unseen, Option.isNone_none, if_pos rfl] at last
          cases found : valueOf key line with
          | none =>
            rw [found] at last
            cases last
          | some other =>
            rw [found] at last
            cases last
            exact ⟨[], line, rest, rfl, value_of_eq_some.mp found, unseen, later⟩
      | cons first others =>
        have nonempty : hiddenValues key rest ≠ [] := by
          rw [later]
          exact List.cons_ne_nil first others
        rw [hidden_values_cons, List.getLast?_append_of_ne_nil _ nonempty] at last
        obtain ⟨before, found, after, rfl, isRead, unseen, none_⟩ := ih last
        exact ⟨line :: before, found, after, rfl, isRead, unseen, none_⟩
  · rintro ⟨before, line, after, rfl, isRead, unseen, none_⟩
    have split : hiddenValues key (before ++ line :: after) =
        hiddenValues key before ++ hiddenValues key (line :: after) := by
      unfold hiddenValues
      rw [List.filter_append, values_of_append]
    rw [split, hidden_values_cons, none_, unseen, value_of_eq_some.mpr isRead]
    simp

theorem last_of_exposed (key : Text) (rows : List Text) : lastWins (exposed rows).toList key = none ↔
    ∀ value, exposed rows ≠ some (key, value) := by
  unfold lastWins
  cases exposed rows with
  | none => simp
  | some pair =>
    obtain ⟨name, value⟩ := pair
    rw [Option.toList_some, List.reverse_singleton, List.lookup_cons]
    by_cases same : name = key
    · rw [same, beq_self_eq_true]
      simp
    · rw [beq_eq_false_iff_ne.mpr fun isKey => same isKey.symm]
      simp [same]

theorem reader_of_lines (rows : List Text) (key : Text) : lastWins (assignments rows) key =
      (valuesOf key rows).getLast?.or (lastWins (exposed rows).toList key) := by
  unfold assignments
  rw [last_wins_append, last_wins_values]

theorem reader_after (key : Text) :
    lastWins (parseDotenv (DotenvDocument.edited source values remove).toText).values key =
      (valuesOf key (DotenvDocument.edited source values remove).lines).getLast?.or
        (lastWins (exposed ((lines source).dropWhile (isRemoved remove))).toList key) := by
  rw [edited_values, reader_of_lines, exposed_edited]

theorem reader_before (key : Text) : lastWins (parseDotenv source).values key =
    (valuesOf key (lines source)).getLast?.or (lastWins (exposed (lines source)).toList key) := by
  rw [parse_values, reader_of_lines]

/-- A removed name is gone, unless a line is left that assigns it and that the editor does not see. -/
theorem removed_reader (gone : key ∈ remove) :
    lastWins (parseDotenv (DotenvDocument.edited source values remove).toText).values key = none ↔
      (key = exportName → ∀ line ∈ lines source, ExportLine line → reads line = none) ∧
        ∀ value, exposed ((lines source).dropWhile (isRemoved remove)) ≠ some (key, value) := by
  rw [reader_after, edited_values_of, if_neg fun both => both.1 gone, List.append_nil,
    retained_blocked (.inl gone), Option.or_eq_none_iff, List.getLast?_eq_none_iff, hidden_values_eq_nil, last_of_exposed]

/-- A given name has its value, unless the editor rewrites it before a line that it does not see. -/
theorem given_reader {key value : Text} (kept : key ∉ remove) (given : values.get key = some value) :
    lastWins (parseDotenv (DotenvDocument.edited source values remove).toText).values key = some value ↔
      ∀ before line after found, lines source = before ++ line :: after → reads line = some (key, found) →
        editedKey line = none → hiddenValues key after = [] → (∃ earlier ∈ before, editedKey earlier = some key) →
        found = value := by
  rw [reader_after, edited_values_of]
  by_cases seen : ∃ line ∈ lines source, editedKey line = some key
  · obtain ⟨first, isFirst⟩ : ∃ first, (lines source).find? (fun line => decide
      (editedKey line = some key)) = some first := by
      obtain ⟨line, member, found⟩ := seen
      exact Option.isSome_iff_exists.mp (List.find?_isSome.mpr ⟨line, member, decide_eq_true found⟩)
    obtain ⟨isKey, before, after, split, earlier⟩ := List.find?_eq_some_iff_append.mp isFirst
    have found : editedKey first = some key := of_decide_eq_true isKey
    have unseen : ∀ row ∈ before, editedKey row ≠ some key := by
      intro row member same
      have isNot := earlier row member
      rw [decide_eq_true same] at isNot
      cases isNot
    obtain ⟨retained, isWritten⟩ := retained_given kept given List.not_mem_nil after unseen found
    have last : (hiddenValues key before ++ value :: hiddenValues key after).getLast? =
        some ((hiddenValues key after).getLast?.getD value) := by
      rw [List.getLast?_append_of_ne_nil _ (List.cons_ne_nil value _), List.getLast?_cons]
    rw [split, retained, if_neg fun both => both.2 isWritten, List.append_nil, last, Option.some_or, Option.some_inj]
    constructor
    · rintro isValue front line back other isSplit isRead isNone none_ ⟨row, inFront, isRow⟩
      have later : ∃ middle, after = middle ++ line :: back := by
        rcases List.append_eq_append_iff.mp isSplit with ⟨middle, isFront, rest⟩ | ⟨middle, isBefore, -⟩
        · cases middle with
          | nil =>
            rw [(List.cons.inj rest).1, isNone] at found
            cases found
          | cons _ middle => exact ⟨middle, (List.cons.inj rest).2⟩
        · rw [isBefore] at unseen
          exact absurd isRow (unseen row (List.mem_append_left middle inFront))
      obtain ⟨middle, isAfter⟩ := later
      have isLast := hidden_values_last.mpr ⟨middle, line, back, isAfter, isRead, isNone, none_⟩
      rwa [isLast] at isValue
    · intro settled
      cases isLast : (hiddenValues key after).getLast? with
      | none => rfl
      | some other =>
        obtain ⟨middle, line, back, isAfter, isRead, isNone, none_⟩ := hidden_values_last.mp isLast
        apply settled (before ++ first :: middle) line back other _ isRead isNone none_
        · exact ⟨first, by simp, found⟩
        · rw [isAfter]
          simp
  · have unseen : ∀ line ∈ lines source, editedKey line ≠ some key := fun line member same =>
      seen ⟨line, member, same⟩
    obtain ⟨retained, notWritten⟩ := @retained_unseen values remove _ _ List.not_mem_nil _ unseen
    rw [retained, if_pos ⟨kept, notWritten⟩, given, Option.toList_some, List.getLast?_append_of_ne_nil _
      (List.cons_ne_nil value []),
      List.getLast?_singleton, Option.some_or]
    apply iff_of_true rfl
    rintro before line after found split - - - ⟨earlier, member, same⟩
    apply absurd same
    apply unseen
    rw [split]
    exact List.mem_append_left _ member

/-- A name that is not edited has the value it had, unless a line becomes the first. -/
theorem unedited_reader (kept : key ∉ remove) (absent : values.get key = none) :
    lastWins (parseDotenv (DotenvDocument.edited source values remove).toText).values key =
        lastWins (parseDotenv source).values key ↔
      ∀ value, exposed ((lines source).dropWhile (isRemoved remove)) = some (key, value) →
        (lines source).takeWhile (isRemoved remove) = [] ∨
          ∃ line ∈ lines source, ∃ found, reads line = some (key, found) := by
  have appended : (if key ∉ remove ∧ key ∉ (DotenvDocument.retainLines values remove [] (lines source)).2 then
      (values.get key).toList else []) = [] := by
    rw [absent]
    exact ite_self _
  rw [reader_after, reader_before, edited_values_of, appended, List.append_nil, retained_unedited kept absent]
  by_cases unassigned : valuesOf key (lines source) = []
  · have never : ¬∃ line ∈ lines source, ∃ found, reads line = some (key, found) := by
      rintro ⟨line, member, found, isRead⟩
      exact values_of_eq_nil.mp unassigned line member found isRead
    rw [unassigned, List.getLast?_nil, Option.none_or, Option.none_or]
    cases rows : lines source with
    | nil => exact iff_of_true rfl fun _ _ => .inl rfl
    | cons first rest =>
      cases gone : isRemoved remove first with
      | false =>
        have stays := Bool.eq_false_iff.mp gone
        rw [List.dropWhile_cons_of_neg stays, List.takeWhile_cons_of_neg stays]
        exact iff_of_true rfl fun _ _ => .inl rfl
      | true =>
        rw [rows] at never
        have hidden : exposed (first :: rest) = none := by
          unfold isRemoved at gone
          cases found : editedKey first with
          | none =>
            rw [found] at gone
            cases gone
          | some name =>
            unfold exposed
            rw [List.head?_cons, Option.bind_some, unmarked_if_edited found]
            rfl
        have before : lastWins (exposed (first :: rest)).toList key = none := by
          rw [hidden]
          rfl
        rw [before, last_of_exposed]
        apply forall_congr'
        intro value
        apply imp_congr_right
        intro _
        rw [List.takeWhile_cons_of_pos gone]
        exact iff_of_false id fun either => either.elim (List.cons_ne_nil _ _) never
  · obtain ⟨last, isLast⟩ := Option.ne_none_iff_exists'.mp (mt List.getLast?_eq_none_iff.mp unassigned)
    rw [isLast, Option.some_or, Option.some_or]
    apply iff_of_true rfl
    intro _ _
    apply Or.inr
    by_contra never
    apply unassigned
    rw [values_of_eq_nil]
    intro line member found isRead
    exact never ⟨line, member, found, isRead⟩

end Readers

/-- An edit means what it asks for exactly when no hidden assignment is in its way. -/
theorem edit_exact_iff (source : Text) (values : EnvValues) (remove : List Text) :
    EditedExactly source values remove ↔ Undisturbed source values remove := by
  constructor
  · rintro ⟨readers, -⟩
    constructor
    · intro gone
      have isNone := readers exportName
      rw [if_pos gone, removed_reader gone] at isNone
      exact isNone.1 rfl
    · intro kept before line after value split inLine isRead none_ earlier
      cases given : values.get exportName with
      | none => exact .inl rfl
      | some wanted =>
          have isValue := readers exportName
          rw [if_neg kept, given, Option.some_or, given_reader kept given] at isValue
          have hidden : hiddenValues exportName after = [] := hidden_values_eq_nil.mpr fun _ => none_
          have same := isValue before line after value split isRead (export_unseen inLine) hidden earlier
          exact .inr (congrArg some same.symm)
    · intro key value isExposed
      constructor
      · intro gone
        have isNone := readers key
        rw [if_pos gone, removed_reader gone] at isNone
        exact isNone.2 value isExposed
      · by_cases gone : key ∈ remove
        · have isNone := readers key
          rw [if_pos gone, removed_reader gone] at isNone
          exact absurd isExposed (isNone.2 value)
        cases given : values.get key with
        | some wanted => exact .inr (.inl (Option.some_ne_none wanted))
        | none =>
            have same := readers key
            rw [if_neg gone, given, Option.none_or, unedited_reader gone given] at same
            exact (same value isExposed).imp_right .inr
  · intro undisturbed
    constructor
    · intro key
      by_cases gone : key ∈ remove
      · rw [if_pos gone, removed_reader gone]
        constructor
        · rintro rfl
          exact undisturbed.exportRemoved gone
        · intro value isExposed
          exact (undisturbed.marked key value isExposed).1 gone
      · rw [if_neg gone]
        cases given : values.get key with
        | some wanted =>
            rw [Option.some_or, given_reader gone given]
            intro before line after found split isRead unseen hidden earlier
            obtain ⟨rfl, inLine, -⟩ := hidden_line.mp ⟨isRead, unseen⟩
            have either := undisturbed.exportGiven gone before line after found split inLine isRead
              (hidden_values_eq_nil.mp hidden rfl) earlier
            rw [given] at either
            rcases either with isNone | isSame
            · cases isNone
            · exact (Option.some.inj isSame).symm
        | none =>
            rw [Option.none_or, unedited_reader gone given]
            intro value isExposed
            rcases (undisturbed.marked key value isExposed).2 with first | isGiven | assigned
            · exact .inl first
            · exact absurd given isGiven
            · exact .inr assigned
    · rw [parse_lines]
      exact untouched_kept

/-- No values are given. -/
def noValues : EnvValues := ⟨[], List.nodup_nil, nofun⟩

/-- `TOKEN=secret` after a byte order mark. -/
def markedSecret : Text := byteOrderMark :: "TOKEN=secret\n".toList

theorem marked_secret_stays :
    lastWins (parseDotenv (DotenvDocument.edited markedSecret noValues ["TOKEN".toList]).toText).values "TOKEN".toList =
      some "secret".toList ∧
    ¬∀ (source : Text) (values : EnvValues) (remove : List Text), EditedExactly source values remove := by
  have stays : lastWins (parseDotenv (DotenvDocument.edited markedSecret noValues ["TOKEN".toList]).toText).values
      "TOKEN".toList = some "secret".toList := by decide +kernel
  refine ⟨stays, fun always => ?_⟩
  have gone := (always markedSecret noValues ["TOKEN".toList]).readers "TOKEN".toList
  rw [stays, if_pos List.mem_cons_self] at gone
  cases gone

end Panoptikon.Config
