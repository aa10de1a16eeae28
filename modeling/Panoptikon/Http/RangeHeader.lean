import Panoptikon.Foundation.ByteRanges

/-!
# The Range header

`parse_range_header` of `api/http_file.rs`: one pass over the comma-separated
specs, which gives up at the first malformed one. Positions are read by the
integer parser of the standard library, which takes a plus sign and stops at
`2 ^ 64`; between these two and the white space it trims, the header is read as
the RFC's range set.
-/

namespace Panoptikon.Http

open Foundation Foundation.ByteRanges

inductive RangeOutcome where
  | full
  | partial_ (start stop : Nat)
  | unsatisfiable
deriving DecidableEq

/-- `str::split_once` at a character. -/
def splitOnce (separator : Char) : Text → Option (Text × Text)
  | [] => none
  | char :: rest =>
      if char = separator then some ([], rest)
      else (splitOnce separator rest).map fun halves => (char :: halves.1, halves.2)

/-- `size.checked_sub(1)`. -/
def lastPosition (size : Nat) : Option Nat := if 1 ≤ size then some (size - 1) else none

/-- The end of a range, clamped to the body; an empty body has none. -/
def readEnd (size start : Nat) (endStr : Text) : Option (Option Nat) :=
  if endStr.isEmpty then some (lastPosition size)
  else do
    let stop ← Text.parseUsize endStr
    if stop < start then none else some ((lastPosition size).map (min stop))

/-- The two sides of the hyphen, trimmed. `none` is malformed, `some none`
selects nothing of the body. -/
def readHalves (size : Nat) (startStr endStr : Text) : Option (Option (Nat × Nat)) :=
  if startStr.isEmpty then do
    let suffix ← Text.parseUsize endStr
    if suffix = 0 ∨ size = 0 then some none
    else some (some (size - suffix, size - 1))
  else do
    let start ← Text.parseUsize startStr
    let stop ← readEnd size start endStr
    some ((stop.filter (start ≤ ·)).map (start, ·))

def readSpec (size : Nat) (spec : Text) : Option (Option (Nat × Nat)) := do
  let halves ← splitOnce '-' spec
  readHalves size (Text.trim halves.1) (Text.trim halves.2)

structure Progress where
  satisfiable : List (Nat × Nat)
  anyValid : Bool

/-- `none` is the early return at a malformed spec. -/
def readSpecs (size : Nat) : List Text → Progress → Option Progress
  | [], progress => some progress
  | piece :: pieces, progress =>
      let spec := Text.trim piece
      if spec.isEmpty then readSpecs size pieces progress
      else do
        let range ← readSpec size spec
        readSpecs size pieces
          { satisfiable := progress.satisfiable ++ range.toList, anyValid := true }

def Progress.outcome (progress : Progress) : RangeOutcome :=
  match progress.satisfiable, progress.anyValid with
  | [(start, stop)], _ => .partial_ start stop
  | [], true => .unsatisfiable
  | _, _ => .full

/-- What follows the unit. -/
def rangeSpecs (trimmed : Text) : Option Text :=
  ((Text.sliceTo trimmed 6).filter fun unit => Text.toAsciiLowercase unit = "bytes=".toList).bind
    fun _ => Text.sliceFrom trimmed 6

def parseRangeHeader (value : Text) (size : Nat) : RangeOutcome :=
  match rangeSpecs (Text.trim value) with
  | none => .full
  | some specs =>
      match readSpecs size (specs.splitOn ',') { satisfiable := [], anyValid := false } with
      | none => .full
      | some progress => progress.outcome

variable {range : Option (Nat × Nat)}

section Specs

variable {size : Nat}

/-- The trimmed sides of the hyphen of a spec. -/
inductive Halves : Text → Text → RangeSpec → Prop where
  | bounded {firstText lastText : Text} {first last : Nat} (start : Digits firstText first)
      (stop : Digits lastText last) (ordered : first ≤ last) :
      Halves firstText lastText (.int first (some last))
  | unbounded {firstText : Text} {first : Nat} (start : Digits firstText first) :
      Halves firstText [] (.int first none)
  | suffix {lengthText : Text} {length : Nat} (digits : Digits lengthText length) :
      Halves [] lengthText (.suffix length)

theorem is_empty_eq_false {Member : Type} {list : List Member} (nonempty : list ≠ []) : list.isEmpty = false := by
  rw [Bool.eq_false_iff, ne_eq, List.isEmpty_iff]
  exact nonempty

variable {text : Text}

theorem parse_digits {value : Nat} (digits : Digits text value) (small : value < 2 ^ 64) :
    Text.parseUsize text = some value := by
  have unsigned : Text.stripPlus text = text := by
    unfold Text.stripPlus
    split
    · rename_i rest
      exact absurd List.mem_cons_self (digits.absent (by decide))
    · rfl
  have plain : (text.isEmpty || !text.all Char.isDigit) = false := by
    rw [Bool.or_eq_false_iff]
    exact ⟨is_empty_eq_false digits.nonempty, by simpa using digits.digits⟩
  have read := digits.value
  subst read
  unfold Text.parseUsize
  simp only [unsigned, plain]
  rw [if_neg Bool.false_ne_true, if_pos small]

/-- A sign where a position should begin: behind the unit, a comma or a hyphen. -/
def Signed (text : Text) : Prop :=
  ∃ before mark gap digit after, text = before ++ mark :: (gap ++ '+' :: digit :: after) ∧ mark ∈ ['=', ',', '-'] ∧
    Text.Blank gap ∧ digit.isDigit = true

theorem signed_within {mark other : Char} (signed : Signed (mark :: text)) (isMark : other ∈ ['=', ',', '-'])
    (front : Text) {gap : Text} (isGap : Text.Blank gap) (back : Text) :
    Signed (front ++ other :: (gap ++ text ++ back)) := by
  obtain ⟨before, found, inner, digit, after, same, isFound, isInner, isDigit⟩ := signed
  cases before with
  | nil =>
    obtain ⟨-, rfl⟩ := List.cons_eq_cons.mp same
    refine ⟨front, other, gap ++ inner, digit, after ++ back, by simp, isMark, ?_, isDigit⟩
    exact fun char member => (List.mem_append.mp member).elim (isGap char) (isInner char)
  | cons first rest =>
    obtain ⟨-, rfl⟩ := List.cons_eq_cons.mp same
    exact ⟨front ++ other :: (gap ++ rest), found, inner, digit, after ++ back, by simp, isFound, isInner, isDigit⟩

theorem digits_of_parse {value : Nat} (parsed : Text.parseUsize text = some value)
    (unsigned : ¬Signed (',' :: text)) : Digits text value ∧ value < 2 ^ 64 := by
  have same : Text.stripPlus text = text := by
    unfold Text.stripPlus
    split
    · rename_i rest
      exfalso
      have plain : ¬(rest.isEmpty || !rest.all Char.isDigit) = true := by
        intro bad
        rw [Text.parseUsize, Text.stripPlus, if_pos bad] at parsed
        cases parsed
      cases rest with
      | nil => exact plain rfl
      | cons digit after =>
        have digits : (digit :: after).all Char.isDigit = true := by simpa using plain
        rw [List.all_cons, Bool.and_eq_true] at digits
        exact unsigned ⟨[], ',', [], digit, after, rfl, by decide, List.forall_mem_nil _, digits.1⟩
    · rfl
  unfold Text.parseUsize at parsed
  simp only [same] at parsed
  split at parsed
  · exact absurd parsed.symm (Option.some_ne_none _)
  · rename_i plain
    rw [Bool.not_eq_true, Bool.or_eq_false_iff] at plain
    split at parsed
    · rename_i small
      rw [Option.some.injEq] at parsed
      subst parsed
      refine ⟨⟨?_, ?_, rfl⟩, small⟩
      · rw [ne_eq, ← List.isEmpty_iff, plain.1]
        exact Bool.false_ne_true
      · simpa using plain.2
    · exact absurd parsed.symm (Option.some_ne_none _)

theorem last_position_of_pos (positive : 0 < size) : lastPosition size = some (size - 1) := if_pos positive

theorem last_position_zero : lastPosition 0 = none := rfl

theorem clamped_eq (first : Nat) (stop : Nat → Nat) (proper : 0 < size → first < size → first ≤ stop (size - 1))
    (clamps : stop (size - 1) ≤ size - 1) : (((lastPosition size).map stop).filter (first ≤ ·)).map (first, ·) =
      if first < size then some (first, stop (size - 1)) else none := by
  rcases Nat.eq_zero_or_pos size with rfl | positive
  · rw [last_position_zero, if_neg (Nat.not_lt_zero first)]
    rfl
  · rw [last_position_of_pos positive, Option.map_some]
    by_cases inside : first < size
    · rw [if_pos inside, Option.filter_some, if_pos (decide_eq_true (proper positive inside)), Option.map_some]
    · have past : ¬first ≤ stop (size - 1) := by omega
      rw [if_neg inside, Option.filter_some, if_neg (by simpa using past), Option.map_none]

variable {spec : RangeSpec}

theorem read_halves {startStr endStr : Text} (halves : Halves startStr endStr spec)
    (below : spec.Below (2 ^ 64)) : readHalves size startStr endStr = some (spec.selected size) := by
  cases halves with
  | @bounded _ _ first last start stop ordered =>
    have parsedFirst := parse_digits start below.1
    have parsedLast := parse_digits stop (below.2 _ rfl)
    have clamped := @clamped_eq size first (min last) (fun positive inside => by omega) (Nat.min_le_right _ _)
    simp only [readHalves, readEnd, is_empty_eq_false start.nonempty, is_empty_eq_false stop.nonempty,
      parsedFirst, parsedLast, Bool.false_eq_true, if_false, if_neg (Nat.not_lt.mpr ordered),
      Option.bind_eq_bind, Option.bind_some, clamped]
    rfl
  | @unbounded _ first start =>
    have parsedFirst := parse_digits start below.1
    have clamped := @clamped_eq size first id (fun positive inside => Nat.le_sub_one_of_lt inside) (Nat.le_refl _)
    rw [Option.map_id, id_eq, id_eq] at clamped
    simp only [readHalves, readEnd, is_empty_eq_false start.nonempty, parsedFirst, Bool.false_eq_true,
      if_false, List.isEmpty_nil, if_true, Option.bind_eq_bind, Option.bind_some, clamped]
    rfl
  | suffix digits =>
    have parsed := parse_digits digits below
    simp only [readHalves, List.isEmpty_nil, if_true, parsed, Option.bind_eq_bind, Option.bind_some,
      RangeSpec.selected]
    split
    · rfl
    · rfl

theorem halves_of_read {startStr endStr : Text}
    (read : readHalves size startStr endStr = some range) (unsignedStart : ¬Signed (',' :: startStr))
    (unsignedEnd : ¬Signed (',' :: endStr)) : ∃ spec, Halves startStr endStr spec ∧ spec.Below (2 ^ 64) := by
  unfold readHalves at read
  split at read
  · rename_i empty
    obtain ⟨suffix, parsed, -⟩ := Option.bind_eq_some_iff.mp read
    obtain ⟨digits, small⟩ := digits_of_parse parsed unsignedEnd
    rw [List.isEmpty_iff.mp empty]
    exact ⟨.suffix suffix, .suffix digits, small⟩
  · obtain ⟨first, parsedFirst, read⟩ := Option.bind_eq_some_iff.mp read
    obtain ⟨start, firstSmall⟩ := digits_of_parse parsedFirst unsignedStart
    obtain ⟨stop, isStop, -⟩ := Option.bind_eq_some_iff.mp read
    unfold readEnd at isStop
    split at isStop
    · rename_i empty
      rw [List.isEmpty_iff.mp empty]
      refine ⟨.int first none, .unbounded start, firstSmall, ?_⟩
      intro position isLast
      exact absurd isLast (Option.not_mem_none _)
    · obtain ⟨last, parsedLast, checked⟩ := Option.bind_eq_some_iff.mp isStop
      obtain ⟨stopDigits, lastSmall⟩ := digits_of_parse parsedLast unsignedEnd
      split at checked
      · exact absurd checked.symm (Option.some_ne_none _)
      · rename_i ordered
        refine ⟨.int first (some last), .bounded start stopDigits (Nat.not_lt.mp ordered), firstSmall, ?_⟩
        intro position isLast
        rw [Option.mem_some_iff] at isLast
        omega

theorem split_once_at {separator : Char} {before : Text} (absent : separator ∉ before) (after : Text) :
    splitOnce separator (before ++ separator :: after) = some (before, after) := by
  induction before with
  | nil => exact if_pos rfl
  | cons char rest ih =>
    rw [List.mem_cons, not_or] at absent
    rw [List.cons_append, splitOnce, if_neg (Ne.symm absent.1), ih absent.2]
    rfl

theorem split_once_eq_some {separator : Char} {halves : Text × Text}
    (split : splitOnce separator text = some halves) : text = halves.1 ++ separator :: halves.2 := by
  induction text generalizing halves with
  | nil => exact absurd split.symm (Option.some_ne_none _)
  | cons char rest ih =>
    rw [splitOnce] at split
    by_cases here : char = separator
    · rw [if_pos here, Option.some.injEq] at split
      rw [← split, here]
      rfl
    · rw [if_neg here] at split
      obtain ⟨later, isLater, rfl⟩ := Option.map_eq_some_iff.mp split
      rw [ih isLater]
      rfl

theorem no_blank : Text.Blank [] := by
  intro char member
  cases member

variable {core : Text}

theorem halves_of_spec (spelled : Spec Text.Blank core spec) :
    ∃ before after, splitOnce '-' core = some (before, after) ∧
      Halves (Text.trim before) (Text.trim after) spec := by
  have noDigit : '-'.isDigit = false := by decide
  cases spelled with
  | @bounded firstText lastText before after first last start beforeHyphen afterHyphen stop ordered =>
    have absent : '-' ∉ firstText ++ before := by
      rw [List.mem_append, not_or]
      exact ⟨start.absent noDigit, hyphen_not_blank beforeHyphen⟩
    refine ⟨firstText ++ before, after ++ lastText, ?_, ?_⟩
    · rw [List.append_assoc, List.cons_append]
      exact split_once_at absent _
    · have left := trim_between no_blank beforeHyphen start.solid
      have right := trim_between afterHyphen no_blank stop.solid
      rw [List.nil_append] at left
      rw [List.append_nil] at right
      rw [left, right]
      exact .bounded start stop ordered
  | @unbounded firstText before first start beforeHyphen =>
    have absent : '-' ∉ firstText ++ before := by
      rw [List.mem_append, not_or]
      exact ⟨start.absent noDigit, hyphen_not_blank beforeHyphen⟩
    refine ⟨firstText ++ before, [], split_once_at absent _, ?_⟩
    have left := trim_between no_blank beforeHyphen start.solid
    rw [List.nil_append] at left
    rw [left]
    exact .unbounded start
  | @suffix after lengthText length afterHyphen digits =>
    refine ⟨[], after ++ lengthText, split_once_at List.not_mem_nil _, ?_⟩
    have right := trim_between afterHyphen no_blank digits.solid
    rw [List.append_nil] at right
    rw [right]
    exact .suffix digits

/-- Two sides that read as a spec spell it, between the blanks at their ends. -/
theorem spec_of_halves {left right : Text} (halves : Halves (Text.trim left) (Text.trim right) spec) :
    ∃ before core after, Text.Blank before ∧ Text.Blank after ∧ Spec Text.Blank core spec ∧
      left ++ '-' :: right = before ++ core ++ after := by
  obtain ⟨before, beforeHyphen, isBefore, isBeforeHyphen, leftIs⟩ := trim_splits left
  obtain ⟨afterHyphen, after, isAfterHyphen, isAfter, rightIs⟩ := trim_splits right
  generalize Text.trim left = startStr at halves leftIs
  generalize Text.trim right = endStr at halves rightIs
  cases halves with
  | bounded start stop ordered =>
    refine ⟨before, _, after, isBefore, isAfter, .bounded start isBeforeHyphen isAfterHyphen stop ordered, ?_⟩
    rw [leftIs, rightIs]
    simp
  | unbounded start =>
    refine ⟨before, _, afterHyphen ++ after, isBefore, blank_append isAfterHyphen isAfter,
      .unbounded start isBeforeHyphen, ?_⟩
    rw [leftIs, rightIs]
    simp
  | suffix digits =>
    refine ⟨before ++ beforeHyphen, _, after, blank_append isBefore isBeforeHyphen, isAfter,
      .suffix isAfterHyphen digits, ?_⟩
    rw [leftIs, rightIs]
    simp

theorem trim_spec {before core after : Text} (isBefore : Text.Blank before)
    (isAfter : Text.Blank after) (spelled : Spec Text.Blank core spec) :
    Text.trim (before ++ core ++ after) = core := by
  have hyphen : Text.isWhitespace '-' = false := by decide
  cases spelled with
  | @bounded firstText lastText gap gapAfter first last start beforeHyphen afterHyphen stop ordered =>
    have shape : before ++ (firstText ++ gap ++ '-' :: gapAfter ++ lastText) ++ after =
        (before ++ (firstText ++ gap)) ++ '-' :: (gapAfter ++ lastText ++ after) := by simp
    rw [shape, Text.trim_around hyphen,
      trim_start_between isBefore start.solid (fun empty => absurd empty start.nonempty),
      trim_end_between isAfter stop.solid (fun empty => absurd empty stop.nonempty)]
    simp
  | @unbounded firstText gap first start beforeHyphen =>
    have shape : before ++ (firstText ++ gap ++ ['-']) ++ after =
        (before ++ (firstText ++ gap)) ++ '-' :: after := by simp
    rw [shape, Text.trim_around hyphen,
      trim_start_between isBefore start.solid (fun empty => absurd empty start.nonempty),
      Text.trim_end_blank isAfter]
  | @suffix gapAfter lengthText length afterHyphen digits =>
    have shape : before ++ ('-' :: gapAfter ++ lengthText) ++ after =
        before ++ '-' :: (gapAfter ++ lengthText ++ after) := by simp
    rw [shape, Text.trim_around hyphen, Text.trim_start_blank isBefore,
      trim_end_between isAfter digits.solid (fun empty => absurd empty digits.nonempty)]
    rfl

theorem spec_nonempty {gap : Text → Prop} (spelled : Spec gap core spec) : core ≠ [] := by
  cases spelled <;> simp

theorem read_spec (spelled : Spec Text.Blank core spec)
    (below : spec.Below (2 ^ 64)) : readSpec size core = some (spec.selected size) := by
  obtain ⟨before, after, split, halves⟩ := halves_of_spec spelled
  rw [readSpec, split]
  exact read_halves halves below

theorem spec_of_read (read : readSpec size text = some range) (unsigned : ¬Signed (',' :: text)) :
    ∃ before core after spec, Text.Blank before ∧ Text.Blank after ∧ Spec Text.Blank core spec ∧
      text = before ++ core ++ after ∧ spec.Below (2 ^ 64) := by
  obtain ⟨halves, split, readBoth⟩ := Option.bind_eq_some_iff.mp read
  have whole := split_once_eq_some split
  have unsignedStart : ¬Signed (',' :: Text.trim halves.1) := by
    obtain ⟨before, after, isBefore, -, same⟩ := trim_splits halves.1
    intro signed
    have wider := signed_within signed (show ',' ∈ _ by decide) [] isBefore (after ++ '-' :: halves.2)
    rw [← List.append_assoc, ← same, ← whole] at wider
    exact unsigned wider
  have unsignedEnd : ¬Signed (',' :: Text.trim halves.2) := by
    obtain ⟨before, after, isBefore, -, same⟩ := trim_splits halves.2
    intro signed
    have wider := signed_within signed (show '-' ∈ _ by decide) (',' :: halves.1) isBefore after
    rw [← same, List.cons_append, ← whole] at wider
    exact unsigned wider
  obtain ⟨spec, isHalves, below⟩ := halves_of_read readBoth unsignedStart unsignedEnd
  obtain ⟨before, core, after, isBefore, isAfter, spelled, same⟩ := spec_of_halves isHalves
  exact ⟨before, core, after, spec, isBefore, isAfter, spelled, whole.trans same, below⟩

theorem read_specs_pieces {list : List Text} {specs : List RangeSpec} (pieces : Pieces list specs)
    (below : ∀ spec ∈ specs, spec.Below (2 ^ 64)) (progress : Progress) : readSpecs size list progress = some
      { satisfiable := progress.satisfiable ++ specs.filterMap (RangeSpec.selected size),
        anyValid := progress.anyValid || !specs.isEmpty } := by
  induction pieces generalizing progress with
  | nil => simp [readSpecs]
  | @cons piece pieces specs later first rest ih =>
    have belowLater (spec : RangeSpec) (member : spec ∈ later) := below spec (List.mem_append_right _ member)
    cases first with
    | blank isBlank =>
      have empty : Text.trim piece = [] := by
        have trimmed := Text.trim_blank_end isBlank []
        rwa [List.nil_append] at trimmed
      rw [readSpecs]
      rw [if_pos (List.isEmpty_iff.mpr empty), ih belowLater]
      rfl
    | @spec before core after spec isBefore isAfter spelled =>
      have trimmed := trim_spec isBefore isAfter spelled
      have solid : ¬(core.isEmpty = true) := by
        rw [List.isEmpty_iff]
        exact spec_nonempty spelled
      have read : readSpec size core = some (spec.selected size) :=
        read_spec spelled (below spec (List.mem_append_left _ List.mem_cons_self))
      rw [readSpecs]
      rw [trimmed, if_neg solid, read, Option.bind_eq_bind, Option.bind_some, ih belowLater]
      cases selected : spec.selected size <;> simp [selected]

theorem pieces_of_read {list : List Text} {progress final : Progress}
    (read : readSpecs size list progress = some final) (unsigned : ∀ piece ∈ list, ¬Signed (',' :: piece)) :
    ∃ specs, Pieces list specs ∧ ∀ spec ∈ specs, spec.Below (2 ^ 64) := by
  induction list generalizing progress with
  | nil => exact ⟨[], .nil, nofun⟩
  | cons piece list ih =>
    have unsignedLater (other : Text) (member : other ∈ list) := unsigned other (List.mem_cons_of_mem _ member)
    obtain ⟨before, after, isBefore, isAfter, same⟩ := trim_splits piece
    rw [readSpecs] at read
    by_cases empty : (Text.trim piece).isEmpty = true
    · rw [if_pos empty] at read
      obtain ⟨specs, pieces, below⟩ := ih read unsignedLater
      have blank : Text.Blank piece := by
        rw [same, List.isEmpty_iff.mp empty, List.append_nil]
        exact blank_append isBefore isAfter
      exact ⟨[] ++ specs, .cons (.blank blank) pieces, below⟩
    · rw [if_neg empty] at read
      obtain ⟨range, readOne, readRest⟩ := Option.bind_eq_some_iff.mp read
      obtain ⟨specs, pieces, below⟩ := ih readRest unsignedLater
      have unsignedSpec : ¬Signed (',' :: Text.trim piece) := by
        intro signed
        have wider := signed_within signed (show ',' ∈ _ by decide) [] isBefore after
        rw [← same] at wider
        exact unsigned piece List.mem_cons_self wider
      obtain ⟨lead, core, trail, spec, isLead, isTrail, spelled, parts, small⟩ :=
        spec_of_read readOne unsignedSpec
      have whole : piece = (before ++ lead) ++ core ++ (trail ++ after) := by
        rw [same, parts]
        simp
      refine ⟨[spec] ++ specs, .cons ?_ pieces, ?_⟩
      · rw [whole]
        exact .spec (blank_append isBefore isLead) (blank_append isTrail isAfter) spelled
      · intro other member
        rcases List.mem_append.mp member with here | later
        · rw [List.mem_singleton.mp here]
          exact small
        · exact below other later

theorem split_on_blank_end {blank : Text} (isBlank : Text.Blank blank) (text : Text) :
    ∃ pieces last, text.splitOn ',' = pieces ++ [last] ∧
      (text ++ blank).splitOn ',' = pieces ++ [last ++ blank] := by
  induction text with
  | nil =>
    refine ⟨[], [], rfl, ?_⟩
    exact List.splitOn_eq_singleton (comma_not_blank isBlank)
  | cons char rest ih =>
    obtain ⟨pieces, last, split, splitBlank⟩ := ih
    rw [List.cons_append, List.splitOn_cons_eq_if_modifyHead, List.splitOn_cons_eq_if_modifyHead, split,
      splitBlank]
    by_cases comma : (char == ',') = true
    · rw [if_pos comma, if_pos comma]
      exact ⟨[] :: pieces, last, rfl, rfl⟩
    · rw [if_neg comma, if_neg comma]
      cases pieces with
      | nil => exact ⟨[], char :: last, rfl, rfl⟩
      | cons first others => exact ⟨(char :: first) :: others, last, rfl, rfl⟩

theorem read_specs_append (first second : List Text) (progress : Progress) :
    readSpecs size (first ++ second) progress =
      (readSpecs size first progress).bind (readSpecs size second) := by
  induction first generalizing progress with
  | nil => rfl
  | cons piece first ih =>
    rw [List.cons_append, readSpecs, readSpecs]
    by_cases empty : (Text.trim piece).isEmpty = true
    · rw [if_pos empty, if_pos empty, ih]
    · rw [if_neg empty, if_neg empty]
      cases readSpec size (Text.trim piece) with
      | none => rfl
      | some range => exact ih _

theorem read_specs_blank_end {blank : Text} (isBlank : Text.Blank blank) (text : Text) (progress : Progress) :
    readSpecs size ((text ++ blank).splitOn ',') progress = readSpecs size (text.splitOn ',') progress := by
  obtain ⟨pieces, last, split, splitBlank⟩ := split_on_blank_end isBlank text
  have same (progress : Progress) : readSpecs size [last ++ blank] progress = readSpecs size [last] progress := by
    simp only [readSpecs, Text.trim_blank_end isBlank]
  rw [split, splitBlank, read_specs_append, read_specs_append]
  congr 1
  funext progress
  exact same progress

end Specs

section Unit

variable {unit : Text}

theorem lower_ascii {char lower : Char} (same : char.toLower = lower) (ascii : lower.toNat < 128)
    (solid : Text.isWhitespace lower = false) : Text.isWhitespace char = false ∧ char.utf8Size = 1 := by
  have one (code : char.toNat < 128) : char.utf8Size = 1 := by
    rw [Char.utf8Size_eq_one_iff, UInt32.le_iff_toNat_le]
    exact Nat.le_of_lt_succ code
  unfold Char.toLower at same
  split at same
  · rename_i upper
    have low : 65 ≤ char.toNat := UInt32.le_iff_toNat_le.mp upper.1
    have high : char.toNat ≤ 90 := UInt32.le_iff_toNat_le.mp upper.2
    constructor
    · unfold Text.isWhitespace
      simp only [Bool.or_eq_false_iff, Bool.and_eq_false_iff, decide_eq_false_iff_not]
      omega
    · exact one (by omega)
  · subst same
    exact ⟨solid, one ascii⟩

theorem unit_shape (isUnit : Text.toAsciiLowercase unit = "bytes=".toList) :
    Solid unit ∧ Text.byteLength unit = 6 ∧ ∃ front last, unit = front ++ [last] := by
  have letters : ∀ char ∈ unit, Text.isWhitespace char = false ∧ char.utf8Size = 1 := by
    intro char member
    have lower : char.toLower ∈ "bytes=".toList := by
      rw [← isUnit]
      exact List.mem_map_of_mem member
    have ascii : ∀ other ∈ "bytes=".toList, other.toNat < 128 ∧ Text.isWhitespace other = false := by
      have checked : ("bytes=".toList.all fun other =>
          decide (other.toNat < 128) && !Text.isWhitespace other) = true := rfl
      intro other member
      have both := List.all_eq_true.mp checked other member
      rw [Bool.and_eq_true, decide_eq_true_iff, Bool.not_eq_true'] at both
      exact both
    exact lower_ascii rfl (ascii _ lower).1 (ascii _ lower).2
  have length : unit.length = 6 := by
    have mapped := congrArg List.length isUnit
    rw [Text.toAsciiLowercase, List.length_map] at mapped
    exact mapped
  refine ⟨fun char member => (letters char member).1, ?_, ?_⟩
  · have ones : unit.map Char.utf8Size = List.replicate unit.length 1 := by
      rw [List.map_eq_replicate_iff]
      exact fun char member => (letters char member).2
    rw [Text.byteLength, ones, List.sum_replicate, length]
    rfl
  · have nonempty : unit ≠ [] := by
      rintro rfl
      exact absurd length (by decide)
    exact ⟨unit.dropLast, unit.getLast nonempty, (List.dropLast_append_getLast nonempty).symm⟩

theorem slice_to_eq_some {text before : Text} {bytes : Nat} (sliced : Text.sliceTo text bytes = some before) :
    ∃ after, text = before ++ after ∧ Text.byteLength before = bytes := by
  induction text generalizing bytes before with
  | nil =>
    cases bytes with
    | zero =>
      cases sliced
      exact ⟨[], rfl, rfl⟩
    | succ bytes => exact absurd sliced.symm (Option.some_ne_none _)
  | cons char rest ih =>
    cases bytes with
    | zero =>
      cases sliced
      exact ⟨char :: rest, rfl, rfl⟩
    | succ bytes =>
      rw [Text.sliceTo] at sliced
      by_cases enough : char.utf8Size ≤ bytes + 1
      · rw [if_pos enough] at sliced
        obtain ⟨front, isFront, rfl⟩ := Option.map_eq_some_iff.mp sliced
        obtain ⟨after, rfl, length⟩ := ih isFront
        refine ⟨after, rfl, ?_⟩
        rw [Text.byte_length_cons, length]
        omega
      · rw [if_neg enough] at sliced
        exact absurd sliced.symm (Option.some_ne_none _)

theorem range_specs_unit (isUnit : Text.toAsciiLowercase unit = "bytes=".toList) (specs : Text) :
    rangeSpecs (unit ++ specs) = some specs := by
  obtain ⟨-, length, -⟩ := unit_shape isUnit
  have before := Text.slice_to_append unit specs
  have after := Text.slice_from_append unit specs
  rw [length] at before after
  rw [rangeSpecs, before, Option.filter_some, if_pos (decide_eq_true isUnit)]
  exact after

theorem unit_of_range_specs {trimmed specs : Text} (parted : rangeSpecs trimmed = some specs) :
    ∃ unit, Text.toAsciiLowercase unit = "bytes=".toList ∧ trimmed = unit ++ specs := by
  obtain ⟨unit, filtered, sliced⟩ := Option.bind_eq_some_iff.mp parted
  obtain ⟨before, isUnit⟩ := Option.filter_eq_some_iff.mp filtered
  obtain ⟨after, rfl, length⟩ := slice_to_eq_some before
  have rest := Text.slice_from_append unit after
  rw [length, sliced, Option.some.injEq] at rest
  exact ⟨unit, of_decide_eq_true isUnit, by rw [rest]⟩

/-- The header without the white space at its ends: what stands at the end of
the list stays in its last piece. -/
theorem trim_header {before rest : Text} (isBefore : Text.Blank before)
    (isUnit : Text.toAsciiLowercase unit = "bytes=".toList) :
    Text.trim (before ++ (unit ++ rest)) = unit ++ Text.trimEnd rest := by
  obtain ⟨solid, -, front, last, rfl⟩ := unit_shape isUnit
  have lastSolid : Text.isWhitespace last = false := solid last (by simp)
  have frontSolid : Solid front := by
    intro char member
    exact solid char (List.mem_append_left _ member)
  have shape : before ++ (front ++ [last] ++ rest) = (before ++ front) ++ last :: rest := by simp
  have start : Text.trimStart (before ++ (front ++ [])) = front ++ [] :=
    trim_start_between isBefore frontSolid fun _ => rfl
  rw [List.append_nil] at start
  rw [shape, Text.trim_around lastSolid, start]
  simp

theorem trim_end_splits (text : Text) : ∃ blank, Text.Blank blank ∧ text = Text.trimEnd text ++ blank := by
  obtain ⟨blank, isBlank, split, -⟩ := Text.trim_start_splits text.reverse
  refine ⟨blank.reverse, Blank.reverse isBlank, ?_⟩
  have whole := congrArg List.reverse split
  rwa [List.reverse_reverse, List.reverse_append] at whole

end Unit

/-- The rule for a range set: one spec that selects bytes is served, none is
unsatisfiable, several are ignored. -/
def answer (size : Nat) (specs : List RangeSpec) : RangeOutcome :=
  ({ satisfiable := specs.filterMap (RangeSpec.selected size), anyValid := true } : Progress).outcome

theorem parse_range_set {header : Text} {specs : List RangeSpec} (lenient : Lenient header specs)
    (below : ∀ spec ∈ specs, spec.Below (2 ^ 64)) (size : Nat) :
    parseRangeHeader header size = answer size specs := by
  obtain ⟨before, unit, lead, list, after, isBefore, isLead, isAfter, isUnit, elements, nonempty, rfl⟩ := lenient
  obtain ⟨blank, isBlank, split⟩ := trim_end_splits (lead ++ list ++ after)
  have trimmed := @read_specs_blank_end size _ isBlank (Text.trimEnd (lead ++ list ++ after))
    { satisfiable := [], anyValid := false }
  have read := @read_specs_pieces size _ _ (elements.pieces isLead isAfter) below
    { satisfiable := [], anyValid := false }
  have valid : (!specs.isEmpty) = true := by
    rw [is_empty_eq_false nonempty]
    rfl
  rw [← split, read, valid] at trimmed
  rw [parseRangeHeader, trim_header isBefore isUnit, range_specs_unit isUnit]
  dsimp only
  rw [← trimmed]
  rfl

/-- A piece stands behind a comma, or the first one behind what stands before the list. -/
theorem piece_placed {text piece : Text} (member : piece ∈ text.splitOn ',') (mark : Char) :
    ∃ front other back, mark :: text = front ++ other :: (piece ++ back) ∧ (other = mark ∨ other = ',') := by
  obtain ⟨earlier, later, isSplit⟩ := List.append_of_mem member
  have rejoined : [','].intercalate (text.splitOn ',') = text := List.intercalate_splitOn ','
  rw [← rejoined, isSplit]
  clear member isSplit
  induction earlier generalizing mark with
  | nil =>
    cases later with
    | nil => exact ⟨[], mark, [], by simp, .inl rfl⟩
    | cons next rest =>
      rw [List.nil_append, List.intercalate_cons_cons, List.append_assoc]
      exact ⟨[], mark, _, rfl, .inl rfl⟩
  | cons first rest ih =>
    obtain ⟨front, other, back, same, isMark⟩ := ih ','
    refine ⟨mark :: (first ++ front), other, back, ?_, .inr (isMark.elim id id)⟩
    have joined : [','].intercalate (first :: (rest ++ piece :: later)) =
        first ++ ',' :: [','].intercalate (rest ++ piece :: later) := by
      cases rest <;> simp
    rw [List.cons_append, joined, same]
    simp

theorem unit_mark {unit : Text} (isUnit : Text.toAsciiLowercase unit = "bytes=".toList) :
    ∃ front, unit = front ++ ['='] := by
  have last := congrArg List.getLast? isUnit
  rw [Text.toAsciiLowercase, List.getLast?_map] at last
  obtain ⟨char, isLast, lower⟩ := Option.map_eq_some_iff.mp last
  have same : char = '=' := by
    unfold Char.toLower at lower
    split at lower
    · rename_i upper
      have code : char.val + ('a'.val - 'A'.val) = '='.val := congrArg Char.val lower
      have shifted : char.val = '='.val - ('a'.val - 'A'.val) := by
        rw [← code]
        simp
      rw [shifted] at upper
      exact absurd upper (by decide)
    · exact lower
  rw [same] at isLast
  exact List.getLast?_eq_some_iff.mp isLast

theorem parse_malformed {header : Text} (malformed : ∀ specs, ¬Lenient header specs)
    (unsigned : ¬Signed header) (size : Nat) : parseRangeHeader header size = .full := by
  obtain ⟨before, after, isBefore, isAfter, same⟩ := trim_splits header
  rw [parseRangeHeader]
  cases parted : rangeSpecs (Text.trim header) with
  | none => rfl
  | some list =>
    obtain ⟨unit, isUnit, trimmed⟩ := unit_of_range_specs parted
    dsimp only
    cases read : readSpecs size (list.splitOn ',') { satisfiable := [], anyValid := false } with
    | none => rfl
    | some final =>
      have unsignedPieces : ∀ piece ∈ list.splitOn ',', ¬Signed (',' :: piece) := by
        intro piece member signed
        obtain ⟨unitFront, rfl⟩ := unit_mark isUnit
        obtain ⟨front, mark, back, placed, isMark⟩ := piece_placed member '='
        have marked : mark ∈ ['=', ',', '-'] := by
          rcases isMark with rfl | rfl <;> decide
        have wider := signed_within signed marked (before ++ unitFront ++ front) no_blank (back ++ after)
        apply unsigned
        rw [same, trimmed]
        have whole : before ++ (unitFront ++ ['='] ++ list) ++ after =
            before ++ unitFront ++ (('=' :: list) ++ after) := by simp
        rw [whole, placed]
        simpa using wider
      obtain ⟨specs, pieces, below⟩ := pieces_of_read read unsignedPieces
      obtain ⟨lead, inner, trail, isLead, isTrail, elements, joined⟩ :=
        pieces.elements (List.splitOn_ne_nil _ _)
      rw [List.intercalate_splitOn] at joined
      have empty : specs = [] := by
        by_contra nonempty
        apply malformed specs
        refine ⟨before, unit, lead, inner, trail ++ after, isBefore, isLead, blank_append isTrail isAfter,
          isUnit, elements, nonempty, ?_⟩
        rw [same, trimmed, joined]
        simp
      subst empty
      rw [read_specs_pieces pieces below, Option.some.injEq] at read
      rw [← read]
      rfl

/-- The first and the last position are in order and in the body. -/
def InBody (size : Nat) (range : Nat × Nat) : Prop := range.1 ≤ range.2 ∧ range.2 < size

theorem read_end_in_body {size start : Nat} {endStr : Text} {stop : Option Nat}
    (read : readEnd size start endStr = some stop) : ∀ position ∈ stop, position < size := by
  have last : ∀ position ∈ lastPosition size, position < size := by
    intro position isLast
    rcases Nat.eq_zero_or_pos size with rfl | positive
    · exact absurd isLast (Option.not_mem_none _)
    · rw [last_position_of_pos positive, Option.mem_some_iff] at isLast
      omega
  unfold readEnd at read
  split at read
  · rw [Option.some.injEq] at read
    rw [← read]
    exact last
  · obtain ⟨position, -, checked⟩ := Option.bind_eq_some_iff.mp read
    split at checked
    · exact absurd checked.symm (Option.some_ne_none _)
    · rw [Option.some.injEq] at checked
      rw [← checked]
      intro clamped isClamped
      obtain ⟨bound, isBound, rfl⟩ := Option.map_eq_some_iff.mp (Option.mem_def.mp isClamped)
      have small := last bound isBound
      omega

theorem read_spec_in_body {size : Nat} {spec : Text}
    (read : readSpec size spec = some range) : ∀ bounds ∈ range, InBody size bounds := by
  obtain ⟨halves, -, read⟩ := Option.bind_eq_some_iff.mp read
  unfold readHalves at read
  split at read
  · obtain ⟨suffix, -, chosen⟩ := Option.bind_eq_some_iff.mp read
    split at chosen
    · rw [Option.some.injEq] at chosen
      rw [← chosen]
      intro bounds isBounds
      exact absurd isBounds (Option.not_mem_none _)
    · rw [Option.some.injEq] at chosen
      rw [← chosen]
      intro bounds isBounds
      rw [Option.mem_some_iff] at isBounds
      rw [← isBounds]
      unfold InBody
      dsimp only
      omega
  · obtain ⟨start, -, read⟩ := Option.bind_eq_some_iff.mp read
    obtain ⟨stop, isStop, chosen⟩ := Option.bind_eq_some_iff.mp read
    rw [Option.some.injEq] at chosen
    rw [← chosen]
    intro bounds isBounds
    obtain ⟨position, kept, rfl⟩ := Option.map_eq_some_iff.mp (Option.mem_def.mp isBounds)
    obtain ⟨isPosition, ordered⟩ := Option.filter_eq_some_iff.mp kept
    exact ⟨of_decide_eq_true ordered, read_end_in_body isStop position isPosition⟩

theorem read_specs_in_body {size : Nat} {list : List Text} {progress final : Progress}
    (read : readSpecs size list progress = some final)
    (inBody : ∀ range ∈ progress.satisfiable, InBody size range) :
    ∀ range ∈ final.satisfiable, InBody size range := by
  induction list generalizing progress with
  | nil =>
    rw [readSpecs, Option.some.injEq] at read
    rw [← read]
    exact inBody
  | cons piece list ih =>
    rw [readSpecs] at read
    by_cases empty : (Text.trim piece).isEmpty = true
    · rw [if_pos empty] at read
      exact ih read inBody
    · rw [if_neg empty] at read
      obtain ⟨range, readOne, readRest⟩ := Option.bind_eq_some_iff.mp read
      apply ih readRest
      intro bounds member
      rcases List.mem_append.mp member with earlier | here
      · exact inBody bounds earlier
      · exact read_spec_in_body readOne bounds (Option.mem_toList.mp here)

theorem partial_in_body {value : Text} {size start stop : Nat}
    (isPartial : parseRangeHeader value size = .partial_ start stop) : start ≤ stop ∧ stop < size := by
  unfold parseRangeHeader at isPartial
  split at isPartial
  · exact RangeOutcome.noConfusion isPartial
  · split at isPartial
    · exact RangeOutcome.noConfusion isPartial
    · rename_i final read
      have inBody := read_specs_in_body read (nofun)
      unfold Progress.outcome at isPartial
      split at isPartial
      · rename_i only
        cases isPartial
        apply inBody (start, stop)
        rw [only]
        exact List.mem_singleton_self _
      · exact RangeOutcome.noConfusion isPartial
      · exact RangeOutcome.noConfusion isPartial

section Rule

variable {size : Nat} {specs : List RangeSpec}

section

variable (ordered : ∀ spec ∈ specs, spec.Ordered)

include ordered

/-- A partial answer is what the only spec with bytes in the body selects. -/
theorem answer_eq_partial {start stop : Nat} (isPartial : answer size specs = .partial_ start stop) :
    ∃ before spec after, specs = before ++ spec :: after ∧
      (∀ position, spec.Selects size position ↔ start ≤ position ∧ position ≤ stop) ∧
      ∀ other ∈ before ++ after, ∀ position, ¬other.Selects size position := by
  unfold answer Progress.outcome at isPartial
  split at isPartial
  · rename_i single
    cases isPartial
    obtain ⟨before, spec, after, rfl, earlierNone, selected, laterNone⟩ := List.filterMap_eq_cons_iff.mp single
    refine ⟨before, spec, after, rfl, ?_, ?_⟩
    · exact (selected_bounds (ordered spec (by simp)) selected).2.2
    · intro other member
      rcases List.mem_append.mp member with earlier | later
      · exact (selected_eq_none_iff (ordered other (by simp [earlier]))).mp (earlierNone other earlier)
      · apply (selected_eq_none_iff (ordered other (by simp [later]))).mp
        exact List.filterMap_eq_nil_iff.mp laterNone other later
  · exact RangeOutcome.noConfusion isPartial
  · exact RangeOutcome.noConfusion isPartial

theorem answer_eq_unsatisfiable_iff :
    answer size specs = .unsatisfiable ↔ ∀ spec ∈ specs, ∀ position, ¬spec.Selects size position := by
  have none_ : specs.filterMap (RangeSpec.selected size) = [] ↔
      ∀ spec ∈ specs, ∀ position, ¬spec.Selects size position := by
    rw [List.filterMap_eq_nil_iff]
    constructor
    · intro nothing spec member
      exact (selected_eq_none_iff (ordered spec member)).mp (nothing spec member)
    · intro nothing spec member
      exact (selected_eq_none_iff (ordered spec member)).mpr (nothing spec member)
  rw [← none_]
  unfold answer Progress.outcome
  cases specs.filterMap (RangeSpec.selected size) with
  | nil => simp
  | cons first rest => cases rest <;> simp

theorem answer_eq_full_iff :
    answer size specs = .full ↔ ∃ before first between second after,
      specs = before ++ first :: between ++ second :: after ∧
      (∃ position, first.Selects size position) ∧ ∃ position, second.Selects size position := by
  have selects {spec : RangeSpec} (member : spec ∈ specs) :
      (∃ position, spec.Selects size position) ↔ ∃ range, spec.selected size = some range := by
    rw [← not_iff_not, not_exists, ← selected_eq_none_iff (ordered spec member), ← Option.isSome_iff_exists,
      Option.not_isSome_iff_eq_none]
  constructor
  · intro isFull
    unfold answer Progress.outcome at isFull
    cases several : specs.filterMap (RangeSpec.selected size) with
    | nil => simp [several] at isFull
    | cons first rest =>
      cases rest with
      | nil => simp [several] at isFull
      | cons second rest =>
        obtain ⟨before, firstSpec, tail, rfl, -, isFirst, tailIs⟩ := List.filterMap_eq_cons_iff.mp several
        obtain ⟨between, secondSpec, after, rfl, -, isSecond, -⟩ := List.filterMap_eq_cons_iff.mp tailIs
        refine ⟨before, firstSpec, between, secondSpec, after, by simp, ?_, ?_⟩
        · exact (selects (by simp)).mpr ⟨first, isFirst⟩
        · exact (selects (by simp)).mpr ⟨second, isSecond⟩
  · rintro ⟨before, first, between, second, after, rfl, isFirst, isSecond⟩
    obtain ⟨firstRange, firstSelected⟩ := (selects (by simp)).mp isFirst
    obtain ⟨secondRange, secondSelected⟩ := (selects (by simp)).mp isSecond
    have several : 2 ≤ ((before ++ first :: between ++ second :: after).filterMap
        (RangeSpec.selected size)).length := by
      simp only [List.filterMap_append, List.filterMap_cons_some firstSelected,
        List.filterMap_cons_some secondSelected, List.length_append, List.length_cons]
      omega
    unfold answer Progress.outcome
    generalize (before ++ first :: between ++ second :: after).filterMap (RangeSpec.selected size) =
      ranges at several
    cases ranges with
    | nil => exact absurd several (by simp)
    | cons first rest =>
      cases rest with
      | nil => exact absurd several (by simp)
      | cons second rest => rfl

end

end Rule

end Panoptikon.Http
