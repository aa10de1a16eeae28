import Panoptikon.Foundation.CutBytes
import Panoptikon.Media.Avif

/-!
# Image sequences, and what is left of them when they are cut off

Well-formed files: a file type, a movie box with a movie header among its boxes, and boxes
that the length does not depend on. A size of zero is left to the last box of the file.
-/

namespace Panoptikon.Media

open Foundation

/-- How the size of a box is written. -/
inductive BoxForm where
  | compact
  | large
  | toEnd
deriving DecidableEq

namespace BoxForm

def headLength : BoxForm → Nat
  | .compact => 8
  | .large => 16
  | .toEnd => 8

def Fits : BoxForm → Nat → Prop
  | .compact, length => 8 + length < 2 ^ 32
  | .large, length => 16 + length < 2 ^ 64
  | .toEnd, _ => True

instance : (form : BoxForm) → (length : Nat) → Decidable (form.Fits length)
  | .compact, length => inferInstanceAs (Decidable (8 + length < 2 ^ 32))
  | .large, length => inferInstanceAs (Decidable (16 + length < 2 ^ 64))
  | .toEnd, _ => inferInstanceAs (Decidable True)

def sizeField : BoxForm → Nat → Nat
  | .compact, length => 8 + length
  | .large, _ => 1
  | .toEnd, _ => 0

def wideField : BoxForm → Nat → List UInt8
  | .large, length => writeBig 8 (16 + length)
  | _, _ => []

/-- What is written in front of a body of some length. -/
def head (form : BoxForm) (letters : List UInt8) (length : Nat) : List UInt8 :=
  writeBig 4 (form.sizeField length) ++ (letters ++ form.wideField length)

end BoxForm

def encodeBox (form : BoxForm) (letters body : List UInt8) : List UInt8 := form.head letters body.length ++ body

section Boxes

variable {bytes letters body rest : List UInt8} {form : BoxForm} {place : Nat}

theorem wide_field_length (form : BoxForm) (length : Nat) :
    8 + (form.wideField length).length = form.headLength := by
  cases form <;> simp only [BoxForm.wideField, BoxForm.headLength, write_big_length, List.length_nil]

theorem box_head_length (form : BoxForm) (four : letters.length = 4) (length : Nat) :
    (form.head letters length).length = form.headLength := by
  have wide := wide_field_length form length
  rw [BoxForm.head, List.length_append, List.length_append, write_big_length, four]
  omega

theorem encode_box_length (form : BoxForm) (four : letters.length = 4) (body : List UInt8) :
    (encodeBox form letters body).length = form.headLength + body.length := by
  rw [encodeBox, List.length_append, box_head_length form four]

theorem eight_le_head_length (form : BoxForm) : 8 ≤ form.headLength := by
  cases form <;> decide

theorem size_field_lt {length : Nat} (fits : form.Fits length) : form.sizeField length < 256 ^ 4 := by
  cases form with
  | compact => exact fits
  | large => exact (by decide : 1 < 256 ^ 4)
  | toEnd => exact (by decide : 0 < 256 ^ 4)

theorem read_head {length : Nat} (bounded : bytes.length < 2 ^ 63) (four : letters.length = 4)
    (ahead : Ahead bytes place (writeBig 4 (form.sizeField length) ++ (letters ++ rest))) :
    rangeAt bytes place (place + 8) = .ok (writeBig 4 (form.sizeField length) ++ letters) ∧
      Foundation.advance place 8 = .ok (place + 8) ∧
      slicedAt (writeBig 4 (form.sizeField length) ++ letters) 0 4 = .ok (writeBig 4 (form.sizeField length)) ∧
      Foundation.advance place 4 = .ok (place + 4) ∧ slicedAt bytes (place + 4) (place + 8) = .ok letters := by
  have behind := ahead.pass_of_length (write_big_length 4 _)
  have start := Ahead.start (writeBig 4 (form.sizeField length) ++ letters)
  have whole := ahead
  rw [← List.append_assoc] at whole
  refine ⟨whole.range_at ?_, ahead.advance bounded (by decide), start.sliced_at ?_, ahead.advance bounded (by decide),
    behind.sliced_at ?_⟩
  · rw [List.length_append, write_big_length, four]
  · rw [write_big_length]
  · rw [four]

theorem box_size_closed {length : Nat} (bounded : bytes.length < 2 ^ 63) (closed : form ≠ .toEnd)
    (fits : form.Fits length) (ahead : Ahead bytes (place + 8) (form.wideField length ++ rest)) :
    boxSize bytes place (form.sizeField length) = .ok (form.headLength, form.headLength + length) := by
  have inside := ahead.length_eq
  cases form with
  | compact =>
    rw [boxSize, BoxForm.sizeField, if_neg (by omega), if_neg (by omega)]
    rfl
  | large =>
    have wide : (BoxForm.large.wideField length).length = 8 := write_big_length 8 _
    have word : readBig (BoxForm.large.wideField length) = 16 + length :=
      read_write_big (Nat.lt_of_lt_of_eq fits (by decide))
    rw [boxSize, BoxForm.sizeField, if_neg (by decide), if_pos rfl]
    simp only [bind, Except.bind]
    rw [Foundation.advance, if_pos (by omega)]
    simp only
    rw [Foundation.advance, if_pos (by omega)]
    simp only
    rw [ahead.range_at (by rw [wide])]
    simp only [word]
    rfl
  | toEnd => exact absurd rfl closed

theorem isobmff_box_whole (bounded : bytes.length < 2 ^ 63) (four : letters.length = 4) (fits : form.Fits body.length)
    (ahead : Ahead bytes place (form.head letters body.length ++ (body ++ rest))) (closed : form = .toEnd → rest = []) :
    isobmffBox bytes place = .ok (body, place + (encodeBox form letters body).length) := by
  have split : form.head letters body.length ++ (body ++ rest) =
      writeBig 4 (form.sizeField body.length) ++ (letters ++ (form.wideField body.length ++ (body ++ rest))) := by
    simp only [BoxForm.head, List.append_assoc]
  have start := ahead
  rw [split] at start
  obtain ⟨header, headerEnd, size, -, -⟩ := read_head bounded four start
  have wide := (start.pass_of_length (write_big_length 4 _)).pass_of_length four
  have inner := ahead.pass_of_length (box_head_length form four body.length)
  have inside := inner.length_eq
  rw [List.length_append] at inside
  have sized : boxSize bytes place (form.sizeField body.length) =
      .ok (form.headLength, form.headLength + body.length) := by
    by_cases isOpen : form = .toEnd
    · subst isOpen
      rw [closed rfl, List.length_nil] at inside
      have toEnd : bytes.length - place = 8 + body.length := by
        rw [BoxForm.headLength] at inside
        omega
      rw [boxSize, BoxForm.sizeField, if_pos rfl, toEnd]
      rfl
    · exact box_size_closed bounded isOpen fits wide
  have small : form.headLength ≤ 16 := by cases form <;> decide
  rw [isobmffBox, headerEnd]
  simp only [bind, Except.bind]
  rw [header]
  simp only
  rw [size]
  simp only
  rw [read_write_big (size_field_lt fits), sized]
  simp only
  rw [if_neg (by omega), if_neg (by omega), ahead.advance bounded (by omega)]
  simp only
  rw [inner.range_at (by omega), encode_box_length form four]
  rfl

/-- A walk over boxes meets the next one whole. -/
theorem box_met {Result : Type} (bounded : bytes.length < 2 ^ 63) (four : letters.length = 4)
    (fits : form.Fits body.length) (ahead : Ahead bytes place (encodeBox form letters body ++ rest))
    (closed : form = .toEnd → rest = []) (next : List UInt8 × Nat → List UInt8 → Walk Result) :
    place < bytes.length ∧
      (do
        let found ← isobmffBox bytes place
        let letters ← slicedAt bytes (← Foundation.advance place 4) (← Foundation.advance place 8)
        next found letters) = next (body, place + (encodeBox form letters body).length) letters := by
  have inside := ahead.length_eq
  have long := encode_box_length form four body
  have eight := eight_le_head_length form
  rw [List.length_append] at inside
  rw [encodeBox, List.append_assoc] at ahead
  have start := ahead
  rw [BoxForm.head, List.append_assoc, List.append_assoc] at start
  obtain ⟨-, lettersEnd, -, lettersAt, found⟩ := read_head bounded four start
  refine ⟨by omega, ?_⟩
  rw [isobmff_box_whole bounded four fits ahead closed]
  simp only [bind, Except.bind]
  rw [lettersAt]
  simp only
  rw [lettersEnd]
  simp only
  rw [found]

/-- A box with bytes missing is malformed, unless it goes to the end of the bytes. -/
theorem isobmff_box_short (bounded : bytes.length < 2 ^ 63) (four : letters.length = 4) (fits : form.Fits body.length)
    {left : Nat} (ahead : Ahead bytes place ((encodeBox form letters body).take left))
    (short : left < (encodeBox form letters body).length) (closed : form = .toEnd → left < 8) :
    isobmffBox bytes place = .error .malformed := by
  have inside := ahead.length_eq
  rw [List.length_take, Nat.min_eq_left (Nat.le_of_lt short)] at inside
  rw [encode_box_length form four] at short
  rw [isobmffBox, ahead.advance bounded (by decide)]
  simp only [bind, Except.bind]
  by_cases headless : left < 8
  · rw [range_cut (by omega)]
  · have isClosed : form ≠ .toEnd := fun isOpen => headless (closed isOpen)
    have split : (encodeBox form letters body).take left =
        writeBig 4 (form.sizeField body.length) ++
          (letters ++ (form.wideField body.length ++ body).take (left - 8)) := by
      have whole : encodeBox form letters body =
          writeBig 4 (form.sizeField body.length) ++ (letters ++ (form.wideField body.length ++ body)) := by
        simp only [encodeBox, BoxForm.head, List.append_assoc]
      rw [whole, take_behind (write_big_length 4 _) _ (by omega), take_behind four _ (by omega), Nat.sub_sub]
    rw [split] at ahead
    obtain ⟨header, -, size, -, -⟩ := read_head bounded four ahead
    have wide := (ahead.pass_of_length (write_big_length 4 _)).pass_of_length four
    rw [header]
    simp only
    rw [size]
    simp only
    rw [read_write_big (size_field_lt fits)]
    by_cases narrow : left < form.headLength
    · have malformed : boxSize bytes place (form.sizeField body.length) = .error .malformed := by
        cases form with
        | compact => exact absurd narrow headless
        | large =>
          rw [BoxForm.headLength] at narrow
          rw [boxSize, BoxForm.sizeField, if_neg (by decide), if_pos rfl]
          simp only [bind, Except.bind]
          rw [Foundation.advance, if_pos (by omega)]
          simp only
          rw [Foundation.advance, if_pos (by omega)]
          simp only
          rw [range_cut (by omega)]
        | toEnd => exact absurd rfl isClosed
      rw [malformed]
    · have field := wide_field_length form body.length
      rw [take_behind rfl _ (by omega)] at wide
      have small : form.headLength ≤ 16 := by cases form <;> decide
      rw [box_size_closed bounded isClosed fits wide]
      simp only
      rw [if_neg (by omega)]
      split
      · rfl
      · rw [Foundation.advance, if_pos (by omega)]
        simp only
        rw [range_cut (by omega)]

end Boxes

/-- The full-box header, the times of creation and of modification, and the duration in ticks of the timescale;
version 1 has wide times and a wide duration. -/
structure MovieHeader where
  wide : Bool
  flags : List UInt8
  three : flags.length = 3
  times : List UInt8
  sized : times.length = if wide then 16 else 8
  timescale : Nat
  timescaleFits : timescale < 256 ^ 4
  duration : Nat
  durationFits : duration < 256 ^ if wide then 8 else 4
  further : List UInt8

variable (header : MovieHeader)

namespace MovieHeader

def durationLen (header : MovieHeader) : Nat := if header.wide then 8 else 4

def encode (header : MovieHeader) : List UInt8 :=
  (if header.wide then 1 else 0) :: (header.flags ++ (header.times ++
    (writeBig 4 header.timescale ++ (writeBig header.durationLen header.duration ++ header.further))))

/-- The length that the header tells, if it tells one. -/
def seconds (header : MovieHeader) : Option ℚ :=
  if header.duration = 256 ^ header.durationLen - 1 ∨ header.timescale = 0 then none
  else some (header.duration / header.timescale)

/-- A duration that is known, and takes time. -/
def Plays (header : MovieHeader) : Prop :=
  header.duration ≠ 256 ^ header.durationLen - 1 ∧ 0 < header.timescale ∧ 0 < header.duration

theorem seconds_still_iff : header.seconds.getD 0 = 0 ↔ ¬header.Plays := by
  rw [seconds, Plays]
  split
  · rename_i untold
    refine iff_of_true rfl ?_
    rintro ⟨known, positive, -⟩
    rcases untold with unknown | zero
    · exact known unknown
    · omega
  · rename_i told
    rw [not_or] at told
    rw [Option.getD_some, div_eq_zero_iff, Nat.cast_eq_zero, Nat.cast_eq_zero, or_iff_left told.2]
    constructor
    · rintro zero ⟨-, -, positive⟩
      omega
    · intro still
      apply Nat.eq_zero_of_not_pos
      intro positive
      exact still ⟨told.1, Nat.pos_of_ne_zero told.2, positive⟩

end MovieHeader

theorem mvhd_duration_encode {timescaleAt : Nat}
    (ahead : Ahead header.encode timescaleAt
      (writeBig 4 header.timescale ++ (writeBig header.durationLen header.duration ++ header.further))) :
    mvhdDuration header.encode timescaleAt header.durationLen = header.seconds.elim (.error .malformed) .ok := by
  have duration := ahead.pass_of_length (write_big_length 4 _)
  have word : readBig (writeBig header.durationLen header.duration) = header.duration :=
    read_write_big header.durationFits
  rw [mvhdDuration, ahead.range_at (by rw [write_big_length])]
  simp only [bind, Except.bind]
  rw [duration.range_at (by rw [write_big_length])]
  simp only
  rw [read_write_big header.timescaleFits, word, MovieHeader.seconds]
  by_cases unknown : header.duration = 256 ^ header.durationLen - 1
  · rw [if_pos unknown, if_pos (Or.inl unknown)]
    rfl
  · rw [if_neg unknown]
    by_cases zero : header.timescale = 0
    · rw [if_pos zero, if_pos (Or.inr zero)]
      rfl
    · rw [if_neg zero, if_neg (not_or.mpr ⟨unknown, zero⟩)]
      rfl

theorem mvhd_body_encode :
    mvhdBody header.encode = header.seconds.elim (.error .malformed) .ok := by
  have start := Ahead.start header.encode
  have flags := start.pass_one
  have timescale := (flags.pass_of_length header.three).pass_of_length header.sized
  rw [mvhdBody, start.byte_at]
  simp only [bind, Except.bind]
  have told := mvhd_duration_encode header timescale
  unfold MovieHeader.durationLen at told
  cases isWide : header.wide with
  | false =>
    rw [isWide] at told
    rw [if_neg Bool.false_ne_true, if_pos rfl]
    exact told
  | true =>
    rw [isWide] at told
    rw [if_pos rfl, if_neg (by decide), if_pos rfl]
    exact told

/-- A box that stands in front of the movie header. -/
structure InnerBox where
  form : BoxForm
  closed : form ≠ .toEnd
  letters : List UInt8
  four : letters.length = 4
  noHeader : letters ≠ ascii "mvhd"
  body : List UInt8
  fits : form.Fits body.length

def InnerBox.encode (box : InnerBox) : List UInt8 := encodeBox box.form box.letters box.body

/-- What a movie box holds, up to the movie header and behind it. -/
structure Movie where
  before : List InnerBox
  form : BoxForm
  closed : form ≠ .toEnd
  header : MovieHeader
  fits : form.Fits header.encode.length
  behind : List UInt8

namespace Movie

def headerBox (movie : Movie) : List UInt8 := encodeBox movie.form (ascii "mvhd") movie.header.encode

def body (movie : Movie) : List UInt8 := movie.before.flatMap InnerBox.encode ++ (movie.headerBox ++ movie.behind)

/-- Where the movie header ends in the body. -/
def headerEnd (movie : Movie) : Nat := (movie.before.flatMap InnerBox.encode ++ movie.headerBox).length

/-- The length that is told by so much of the body. -/
def secondsLeft (movie : Movie) (left : Nat) : Option ℚ :=
  if movie.headerEnd ≤ left then movie.header.seconds else none

end Movie

theorem mvhd_letters : (ascii "mvhd").length = 4 := by decide

theorem mvhd_short {bytes letters body : List UInt8} {form : BoxForm} {place left fuel : Nat}
    (bounded : bytes.length < 2 ^ 63) (four : letters.length = 4) (fits : form.Fits body.length)
    (closed : form ≠ .toEnd) (ahead : Ahead bytes place ((encodeBox form letters body).take left))
    (short : left < (encodeBox form letters body).length) (fueled : 0 < fuel) :
    mvhdSeconds bytes fuel place = .error .malformed := by
  obtain ⟨more, rfl⟩ := Nat.exists_eq_add_of_lt fueled
  rw [Nat.zero_add, mvhdSeconds]
  split
  · rw [isobmff_box_short bounded four fits ahead short fun isOpen => absurd isOpen closed]
    rfl
  · rfl

theorem mvhd_step {bytes letters body rest : List UInt8} {form : BoxForm} {place : Nat}
    (bounded : bytes.length < 2 ^ 63) (four : letters.length = 4) (fits : form.Fits body.length)
    (closed : form ≠ .toEnd) (ahead : Ahead bytes place (encodeBox form letters body ++ rest)) (fuel : Nat) :
    mvhdSeconds bytes (fuel + 1) place =
      if letters = ascii "mvhd" then mvhdBody body
      else mvhdSeconds bytes fuel (place + (encodeBox form letters body).length) := by
  obtain ⟨inside, met⟩ := box_met bounded four fits ahead (fun isOpen => absurd isOpen closed)
    fun found letters => if letters = ascii "mvhd" then mvhdBody found.1 else mvhdSeconds bytes fuel found.2
  rw [mvhdSeconds, if_pos inside]
  exact met

/-- Induction on the boxes in front of the movie header: the header is read if it is there to its end. -/
theorem mvhd_cut {bytes : List UInt8} (bounded : bytes.length < 2 ^ 63) (movie : Movie) (before : List InnerBox)
    {place left fuel : Nat}
    (ahead : Ahead bytes place
      ((before.flatMap InnerBox.encode ++ (movie.headerBox ++ movie.behind)).take left))
    (enough : bytes.length < place + fuel) : mvhdSeconds bytes fuel place =
      (if (before.flatMap InnerBox.encode ++ movie.headerBox).length ≤ left then movie.header.seconds
        else none).elim (.error .malformed) .ok := by
  induction before generalizing place left fuel with
  | nil =>
    have inside := ahead.length_eq
    obtain ⟨fuel, rfl⟩ : ∃ more, fuel = more + 1 := ⟨fuel - 1, by omega⟩
    rw [List.flatMap_nil, List.nil_append] at ahead ⊢
    by_cases whole : movie.headerBox.length ≤ left
    · rw [take_behind rfl _ whole] at ahead
      rw [if_pos whole, mvhd_step bounded mvhd_letters movie.fits movie.closed ahead, if_pos rfl, mvhd_body_encode]
    · have short : left < movie.headerBox.length := Nat.lt_of_not_le whole
      rw [take_within _ (Nat.le_of_lt short)] at ahead
      rw [if_neg whole]
      exact mvhd_short bounded mvhd_letters movie.fits movie.closed ahead short (Nat.succ_pos fuel)
  | cons box later ih =>
    have inside := ahead.length_eq
    obtain ⟨fuel, rfl⟩ : ∃ more, fuel = more + 1 := ⟨fuel - 1, by omega⟩
    rw [List.flatMap_cons, List.append_assoc] at ahead inside
    rw [List.flatMap_cons, List.append_assoc, List.length_append]
    by_cases whole : box.encode.length ≤ left
    · rw [take_behind rfl _ whole] at ahead inside
      rw [List.length_append] at inside
      have long : box.encode.length = box.form.headLength + box.body.length :=
        encode_box_length box.form box.four box.body
      have eight := eight_le_head_length box.form
      have rest := ahead.pass
      have step := mvhd_step bounded box.four box.fits box.closed ahead fuel
      rw [if_neg box.noHeader] at step
      rw [step]
      change mvhdSeconds bytes fuel (place + box.encode.length) = _
      have sameTest : (box.encode.length + (later.flatMap InnerBox.encode ++ movie.headerBox).length ≤ left) =
          ((later.flatMap InnerBox.encode ++ movie.headerBox).length ≤ left - box.encode.length) := by
        rw [eq_iff_iff]
        omega
      rw [ih rest (by omega)]
      congr 1
      rw [if_congr (iff_of_eq sameTest.symm) rfl rfl]
    · have short : left < box.encode.length := Nat.lt_of_not_le whole
      rw [take_within _ (Nat.le_of_lt short)] at ahead
      rw [if_neg (by omega)]
      exact mvhd_short bounded box.four box.fits box.closed ahead short (Nat.succ_pos fuel)

theorem mvhd_body_left (movie : Movie) (left : Nat) (bounded : (movie.body.take left).length < 2 ^ 63) :
    attempt (mvhdSeconds (movie.body.take left) ((movie.body.take left).length + 1) 0) =
      .ok (movie.secondsLeft left) := by
  rw [mvhd_cut bounded movie movie.before (Ahead.start _) (by omega)]
  change attempt ((movie.secondsLeft left).elim _ _) = _
  cases movie.secondsLeft left <;> rfl

end Panoptikon.Media
