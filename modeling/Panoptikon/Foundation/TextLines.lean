import Mathlib.Data.List.TakeWhile
import Panoptikon.Foundation.TextEdits

/-!
# Lines and their ends

The lines of a text do not depend on whether a line feed follows a carriage
return, and a reader that trims its lines does not see the difference. Trimming
stops on either side at a character that is no blank.
-/

namespace Foundation

namespace Text

def trimEnd (text : Text) : Text := (trimStart text.reverse).reverse

def stripSuffix (pattern text : Text) : Option Text :=
  (stripPrefix pattern.reverse text.reverse).map List.reverse

/-- Every character is white space. -/
def Blank (text : Text) : Prop := ∀ char ∈ text, isWhitespace char = true

theorem blank_nil : Blank [] := List.forall_mem_nil _

theorem blank_return : Blank ['\r'] := by
  intro char member
  rw [List.mem_singleton.mp member]
  rfl

section Trimming

variable {solid : Char} {text before after blank : Text}

@[simp] theorem trim_end_nil : trimEnd [] = [] := rfl

theorem trim_start_append (isBlank : Blank blank) (text : Text) : trimStart (blank ++ text) = trimStart text := by
  unfold trimStart
  rw [List.dropWhile_append, List.dropWhile_eq_nil_iff.mpr isBlank]
  rfl

theorem trim_start_solid (isSolid : isWhitespace solid = false) (rest : Text) :
    trimStart (solid :: rest) = solid :: rest :=
  List.dropWhile_cons_of_neg (by simp [isSolid])

theorem trim_start_blank (isBlank : Blank blank) : trimStart blank = [] :=
  List.dropWhile_eq_nil_iff.mpr isBlank

/-- What is trimmed off at the start is blank, and what is left begins with no blank. -/
theorem trim_start_splits (text : Text) : ∃ blank, Blank blank ∧ text = blank ++ trimStart text ∧
    ∀ char rest, trimStart text = char :: rest → isWhitespace char = false := by
  refine ⟨text.takeWhile isWhitespace, fun char member => ?_, List.takeWhile_append_dropWhile.symm, ?_⟩
  · exact List.mem_takeWhile_imp member
  · intro char rest same
    have first := List.head?_dropWhile_not isWhitespace text
    unfold trimStart at same
    rw [same] at first
    exact first

theorem trim_start_around (isSolid : isWhitespace solid = false) (before after : Text) :
    trimStart (before ++ solid :: after) = trimStart before ++ solid :: after := by
  obtain ⟨blank, isBlank, split, first⟩ := trim_start_splits before
  cases left : trimStart before with
  | nil =>
    rw [left, List.append_nil] at split
    rw [split, trim_start_append isBlank, trim_start_solid isSolid]
    rfl
  | cons char rest =>
    rw [left] at split
    rw [split, List.append_assoc, trim_start_append isBlank]
    exact trim_start_solid (first char rest left) _

theorem trim_end_around (isSolid : isWhitespace solid = false) (before after : Text) :
    trimEnd (before ++ solid :: after) = before ++ solid :: trimEnd after := by
  unfold trimEnd
  rw [List.reverse_append, List.reverse_cons, List.append_assoc, List.singleton_append,
    trim_start_around isSolid]
  simp

theorem trim_around (isSolid : isWhitespace solid = false) (before after : Text) :
    trim (before ++ solid :: after) = trimStart before ++ solid :: trimEnd after := by
  have both : trim (before ++ solid :: after) = trimEnd (trimStart (before ++ solid :: after)) := rfl
  rw [both, trim_start_around isSolid, trim_end_around isSolid]

theorem trim_end_append (isBlank : Blank blank) (text : Text) : trimEnd (text ++ blank) = trimEnd text := by
  unfold trimEnd
  rw [List.reverse_append, trim_start_append]
  exact fun char member => isBlank char (List.mem_reverse.mp member)

theorem trim_end_blank (isBlank : Blank blank) : trimEnd blank = [] := by
  have whole := trim_end_append isBlank []
  rwa [List.nil_append] at whole

/-- A text ends in its blanks, and is blank or has a last character before them. -/
theorem blank_or_solid (text : Text) :
    Blank text ∨ ∃ before solid after, text = before ++ solid :: after ∧ isWhitespace solid = false ∧ Blank after := by
  obtain ⟨blank, isBlank, split, first⟩ := trim_start_splits text.reverse
  have backwards : text = (trimStart text.reverse).reverse ++ blank.reverse := by
    rw [← List.reverse_append, ← split, List.reverse_reverse]
  cases left : trimStart text.reverse with
  | nil =>
    apply Or.inl
    rw [left, List.reverse_nil, List.nil_append] at backwards
    rw [backwards]
    exact fun char member => isBlank char (List.mem_reverse.mp member)
  | cons solid rest =>
    apply Or.inr
    refine ⟨rest.reverse, solid, blank.reverse, ?_, first solid rest left, ?_⟩
    · rw [backwards, left, List.reverse_cons, List.append_assoc]
      rfl
    · exact fun char member => isBlank char (List.mem_reverse.mp member)

theorem trim_blank_end (isBlank : Blank blank) (text : Text) : trim (text ++ blank) = trim text := by
  have both (any : Text) : trim any = trimEnd (trimStart any) := rfl
  rcases blank_or_solid text with allBlank | ⟨before, solid, after, rfl, isSolid, -⟩
  · have whole : Blank (text ++ blank) := by
      intro char member
      rcases List.mem_append.mp member with inText | inBlank
      · exact allBlank char inText
      · exact isBlank char inBlank
    rw [both, both, trim_start_blank whole, trim_start_blank allBlank]
  · rw [List.append_assoc, List.cons_append, trim_around isSolid, trim_around isSolid, trim_end_append isBlank]

end Trimming

theorem strip_prefix_eq_some {pattern text rest : Text} :
    stripPrefix pattern text = some rest ↔ text = pattern ++ rest := by
  constructor
  · intro stripped
    unfold stripPrefix at stripped
    split at stripped
    · rename_i starts
      obtain ⟨later, rfl⟩ := List.isPrefixOf_iff_prefix.mp starts
      cases stripped
      rw [List.drop_left]
    · cases stripped
  · rintro rfl
    exact strip_prefix_append pattern rest

theorem strip_suffix_eq_some {pattern text rest : Text} :
    stripSuffix pattern text = some rest ↔ text = rest ++ pattern := by
  rw [stripSuffix, Option.map_eq_some_iff]
  constructor
  · rintro ⟨kept, stripped, rfl⟩
    have whole := strip_prefix_eq_some.mp stripped
    rw [← List.reverse_inj, List.reverse_append, List.reverse_reverse]
    exact whole
  · rintro rfl
    refine ⟨rest.reverse, ?_, List.reverse_reverse rest⟩
    rw [List.reverse_append]
    exact strip_prefix_append pattern.reverse rest.reverse

theorem trim_start_again (text : Text) : trimStart (trimStart text) = trimStart text := by
  obtain ⟨-, -, -, first⟩ := trim_start_splits text
  cases left : trimStart text with
  | nil => rfl
  | cons char rest => exact trim_start_solid (first char rest left) rest

theorem strip_return_splits (line : Text) : ∃ ending, Blank ending ∧ line = stripReturn line ++ ending := by
  unfold stripReturn
  split
  · rename_i returned
    refine ⟨['\r'], blank_return, ?_⟩
    exact (List.dropLast_append_getLast? '\r' returned).symm
  · exact ⟨[], blank_nil, (List.append_nil line).symm⟩

theorem trim_strip_return (line : Text) : trim (stripReturn line) = trim line := by
  obtain ⟨ending, isBlank, split⟩ := strip_return_splits line
  have longer := trim_blank_end isBlank (stripReturn line)
  rw [← split] at longer
  exact longer.symm

theorem strip_return_cons {char : Char} {line : Text} (whole : line = [] → char ≠ '\r') :
    stripReturn (char :: line) = char :: stripReturn line := by
  unfold stripReturn
  cases line with
  | nil => simp [whole rfl]
  | cons next rest =>
    rw [List.getLast?_cons_cons]
    split
    · rfl
    · rfl

theorem split_on_feed_cons (rest : Text) : ('\n' :: rest).splitOn '\n' = [] :: rest.splitOn '\n' := by
  have absent : '\n' ∉ ([] : Text) := List.not_mem_nil
  exact List.splitOn_append_cons_self_of_not_mem absent rest

theorem split_on_other_cons {char : Char} (other : char ≠ '\n') (rest : Text) :
    (char :: rest).splitOn '\n' = (rest.splitOn '\n').modifyHead (char :: ·) := by
  simp [List.splitOn, List.splitOnP_cons_eq_if_modifyHead, other]

theorem split_on_feed_ne_nil (text : Text) : text.splitOn '\n' ≠ [] := List.splitOnP_ne_nil _ text

/-- A feed after a return is replaced by a feed: every piece but the last loses a return at its end. -/
theorem split_on_replaced (text : Text) : (replace ['\r', '\n'] ['\n'] text).splitOn '\n' =
      (text.splitOn '\n').dropLast.map stripReturn ++ (text.splitOn '\n').getLast?.toList := by
  induction text using replace_induction ['\r', '\n'] (List.cons_ne_nil _ _) with
  | empty => rfl
  | found rest ih =>
    have absent : '\n' ∉ ['\r'] := by decide
    have pieces : (['\r', '\n'] ++ rest).splitOn '\n' = ['\r'] :: rest.splitOn '\n' :=
      List.splitOn_append_cons_self_of_not_mem absent rest
    rw [replace_found _ (List.cons_ne_nil _ _), pieces, List.singleton_append, split_on_feed_cons, ih,
      List.dropLast_cons_of_ne_nil (split_on_feed_ne_nil rest), List.getLast?_cons_of_ne_nil (split_on_feed_ne_nil rest)]
    rfl
  | passed char rest differs ih =>
    rw [replace_passed _ differs]
    have someRest := split_on_feed_ne_nil rest
    by_cases feed : char = '\n'
    · subst feed
      rw [split_on_feed_cons, split_on_feed_cons, ih, List.dropLast_cons_of_ne_nil someRest,
        List.getLast?_cons_of_ne_nil someRest]
      rfl
    · rw [split_on_other_cons feed, split_on_other_cons feed, ih]
      cases pieces : rest.splitOn '\n' with
      | nil => exact absurd pieces someRest
      | cons first others =>
        cases others with
        | nil => rfl
        | cons second others =>
          have whole : first = [] → char ≠ '\r' := by
            intro isNil isReturn
            subst isNil isReturn
            apply differs
            cases rest with
            | nil => cases pieces
            | cons next later =>
              by_cases isFeed : next = '\n'
              · rw [isFeed]
                exact ⟨later, rfl⟩
              · rw [split_on_other_cons isFeed] at pieces
                cases inside : later.splitOn '\n' with
                | nil => exact absurd inside (split_on_feed_ne_nil later)
                | cons head tail =>
                  rw [inside] at pieces
                  cases pieces
          simp only [List.modifyHead_cons, List.dropLast_cons_cons, List.map_cons, List.cons_append,
            strip_return_cons whole, List.getLast?_cons_cons]

theorem last_piece_nil_iff (text : Text) :
    (text.splitOn '\n').getLast? = some [] ↔ text = [] ∨ text.getLast? = some '\n' := by
  induction text with
  | nil => simp
  | cons char rest ih =>
    have someRest := split_on_feed_ne_nil rest
    by_cases feed : char = '\n'
    · subst feed
      rw [split_on_feed_cons, List.getLast?_cons_of_ne_nil someRest, ih]
      cases rest <;> simp [List.getLast?_cons_cons]
    · rw [split_on_other_cons feed]
      cases pieces : rest.splitOn '\n' with
      | nil => exact absurd pieces someRest
      | cons first others =>
        rw [pieces] at ih
        cases others with
        | nil =>
          cases rest with
          | nil => simp [feed]
          | cons next later =>
            have unfed : (next :: later).getLast? ≠ some '\n' := by
              intro fed
              have isNil : first = [] := by simpa using ih.mpr (.inr fed)
              have joined : ['\n'].intercalate ((next :: later).splitOn '\n') = next :: later :=
                List.intercalate_splitOn '\n'
              rw [pieces, isNil] at joined
              cases joined
            simpa [List.getLast?_cons_cons] using unfed
        | cons second later =>
          have someText : rest ≠ [] := by
            rintro rfl
            cases pieces
          rw [List.modifyHead_cons, List.getLast?_cons_cons]
          rw [List.getLast?_cons_cons] at ih
          rw [ih, List.getLast?_cons_of_ne_nil someText]
          simp [someText]

/-- Splitting a text whose last line feed is stripped leaves an empty last piece out. -/
theorem split_on_stripped {text : Text} (nonempty : text ≠ []) :
    ((stripSuffix ['\n'] text).getD text).splitOn '\n' =
      (text.splitOn '\n').dropLast ++ (text.splitOn '\n').getLast?.toList.filter fun line => !line.isEmpty := by
  by_cases fed : text.getLast? = some '\n'
  · obtain ⟨front, rfl⟩ : ∃ front, text = front ++ ['\n'] :=
      ⟨text.dropLast, (List.dropLast_append_getLast? '\n' fed).symm⟩
    have stripped : stripSuffix ['\n'] (front ++ ['\n']) = some front := by
      unfold stripSuffix
      rw [List.reverse_append, List.reverse_singleton, strip_prefix_append, Option.map_some, List.reverse_reverse]
    rw [stripped, Option.getD_some, List.splitOn_append_cons_self]
    simp
  · have stripped : stripSuffix ['\n'] text = none := by
      unfold stripSuffix
      rw [strip_prefix_differs, Option.map_none]
      rintro ⟨rest, same⟩
      apply fed
      rw [List.getLast?_eq_head?_reverse, ← same]
      rfl
    have someLast : (text.splitOn '\n').getLast? ≠ some [] := by
      intro isNil
      rcases (last_piece_nil_iff text).mp isNil with isEmpty | isFed
      · exact nonempty isEmpty
      · exact fed isFed
    rw [stripped, Option.getD_none]
    cases last : (text.splitOn '\n').getLast? with
    | none => exact absurd (List.getLast?_eq_none_iff.mp last) (split_on_feed_ne_nil text)
    | some line =>
      have solid : line ≠ [] := fun isNil => someLast (last.trans (congrArg some isNil))
      have kept : [line].filter (fun line => !line.isEmpty) = [line] := by simp [solid]
      rw [Option.toList_some, kept]
      exact (List.dropLast_append_getLast? line last).symm

theorem lines_normalized (source : Text) :
    (if (replace ['\r', '\n'] ['\n'] source).isEmpty then []
      else ((stripSuffix ['\n'] (replace ['\r', '\n'] ['\n'] source)).getD
        (replace ['\r', '\n'] ['\n'] source)).splitOn '\n') = lines source := by
  have someLast : (source.splitOn '\n').getLast?.toList ≠ [] := by
    cases last : (source.splitOn '\n').getLast? with
    | none => exact absurd (List.getLast?_eq_none_iff.mp last) (split_on_feed_ne_nil source)
    | some line => exact List.cons_ne_nil _ _
  have pieces := split_on_replaced source
  cases isEmpty : (replace ['\r', '\n'] ['\n'] source).isEmpty with
  | true =>
    rw [List.isEmpty_iff.mp isEmpty] at pieces
    unfold lines
    cases last : (source.splitOn '\n').getLast? with
    | none => exact absurd (List.getLast?_eq_none_iff.mp last) (split_on_feed_ne_nil source)
    | some line =>
      rw [last] at pieces
      cases front : (source.splitOn '\n').dropLast with
      | nil =>
        rw [front] at pieces
        cases pieces
        rw [if_pos rfl]
        dsimp only
        rw [last, front]
        rfl
      | cons first others =>
        rw [front] at pieces
        simp at pieces
  | false =>
    rw [if_neg Bool.false_ne_true, split_on_stripped (List.isEmpty_eq_false_iff.mp isEmpty), pieces,
      List.dropLast_append_of_ne_nil someLast, List.getLast?_append_of_ne_nil _ someLast]
    cases last : (source.splitOn '\n').getLast? with
    | none => exact absurd (List.getLast?_eq_none_iff.mp last) (split_on_feed_ne_nil source)
    | some line => simp [lines, last]

/-- Lines that are each written with an end are read back, up to a return at the end. -/
theorem lines_of_ended (ending : Text) (noFeed : '\n' ∉ ending) {rows : List Text}
    (clean : ∀ row ∈ rows, '\n' ∉ row) :
    lines (rows.flatMap fun row => row ++ (ending ++ ['\n'])) = rows.map fun row => stripReturn (row ++ ending) := by
  have pieces : (rows.flatMap fun row => row ++ (ending ++ ['\n'])).splitOn '\n' =
      (rows.map fun row => row ++ ending) ++ [[]] := by
    induction rows with
    | nil => rfl
    | cons row rest ih =>
      have free : '\n' ∉ row ++ ending := by
        rw [List.mem_append, not_or]
        exact ⟨clean row List.mem_cons_self, noFeed⟩
      rw [List.flatMap_cons, ← List.append_assoc row, List.append_assoc (row ++ ending), List.singleton_append,
        List.splitOn_append_cons_self_of_not_mem free, ih fun later member => clean later
          (List.mem_cons_of_mem row member)]
      rfl
  unfold lines
  rw [pieces]
  simp

theorem feed_not_in_piece {text piece : Text} (member : piece ∈ text.splitOn '\n') : '\n' ∉ piece := by
  induction text generalizing piece with
  | nil =>
    rw [List.splitOn_nil, List.mem_singleton] at member
    rw [member]
    exact List.not_mem_nil
  | cons char rest ih =>
    by_cases feed : char = '\n'
    · rw [feed, split_on_feed_cons, List.mem_cons] at member
      rcases member with rfl | later
      · exact List.not_mem_nil
      · exact ih later
    · rw [split_on_other_cons feed] at member
      cases pieces : rest.splitOn '\n' with
      | nil => exact absurd pieces (split_on_feed_ne_nil rest)
      | cons first others =>
        rw [pieces] at ih member
        rcases List.mem_cons.mp member with rfl | later
        · rw [List.mem_cons, not_or]
          exact ⟨fun same => feed same.symm, ih List.mem_cons_self⟩
        · exact ih (List.mem_cons_of_mem first later)

theorem feed_not_in_line {text line : Text} (member : line ∈ lines text) : '\n' ∉ line := by
  unfold lines at member
  dsimp only at member
  rcases List.mem_append.mp member with inFront | isLast
  · obtain ⟨piece, isPiece, rfl⟩ := List.mem_map.mp inFront
    have free := feed_not_in_piece (List.dropLast_subset _ isPiece)
    obtain ⟨ending, -, split⟩ := strip_return_splits piece
    rw [split, List.mem_append, not_or] at free
    exact free.1
  · have isPiece := (List.mem_filter.mp isLast).1
    rw [Option.mem_toList] at isPiece
    exact feed_not_in_piece (List.mem_of_getLast? isPiece)

theorem first_line_prefix {text first : Text} (isFirst : (lines text).head? = some first) : first <+: text := by
  have piece {text first : Text} {others : List Text} (pieces : text.splitOn '\n' = first :: others) :
      first <+: text := by
    induction text generalizing first others with
    | nil =>
      rw [List.splitOn_nil] at pieces
      cases pieces
      exact List.prefix_rfl
    | cons char rest ih =>
      by_cases feed : char = '\n'
      · rw [feed, split_on_feed_cons] at pieces
        cases pieces
        exact List.nil_prefix
      · rw [split_on_other_cons feed] at pieces
        cases inner : rest.splitOn '\n' with
        | nil => exact absurd inner (split_on_feed_ne_nil rest)
        | cons head tail =>
          rw [inner] at pieces
          cases pieces
          exact List.cons_prefix_cons.mpr ⟨rfl, ih inner⟩
  unfold lines at isFirst
  dsimp only at isFirst
  cases pieces : text.splitOn '\n' with
  | nil => exact absurd pieces (split_on_feed_ne_nil text)
  | cons head others =>
    rw [pieces] at isFirst
    cases others with
    | nil =>
      cases head with
      | nil => cases isFirst
      | cons char rest =>
        cases isFirst
        exact piece pieces
    | cons second later =>
      cases isFirst
      obtain ⟨ending, -, split⟩ := strip_return_splits head
      have begins : stripReturn head <+: head := ⟨ending, split.symm⟩
      exact begins.trans (piece pieces)

end Text

end Foundation
