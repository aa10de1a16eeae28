import Panoptikon.Foundation.Chunks
import Panoptikon.Media.Animation

/-!
# The length of an image sequence

`parse_avif` of `media_tools/animation.rs`: boxes, each with its size and its four letters
in front, of which the file type and the movie header say what is measured.
-/

namespace Panoptikon.Media

open Foundation

/-- How long the header of a box is, and the whole box. A size of zero goes to the end of the bytes, and a size
of one stands for a wide size behind the letters. -/
def boxSize (bytes : List UInt8) (place size32 : Nat) : Walk (Nat × Nat) :=
  if size32 = 0 then .ok (8, bytes.length - place)
  else if size32 = 1 then do
    let large ← rangeAt bytes (← advance place 8) (← advance place 16)
    return (16, readBig large)
  else .ok (8, size32)

/-- The body of the box at a place, and the place behind it. -/
def isobmffBox (bytes : List UInt8) (place : Nat) : Walk (List UInt8 × Nat) := do
  let header ← rangeAt bytes place (← advance place 8)
  let size32 := readBig (← slicedAt header 0 4)
  let sized ← boxSize bytes place size32
  if sized.2 < sized.1 then .error .malformed
  -- `checked_add`
  else if 2 ^ 64 ≤ place + sized.2 then .error .malformed
  else
    let body ← rangeAt bytes (← advance place sized.1) (place + sized.2)
    return (body, place + sized.2)

/-- All ones is the unknown duration. -/
def mvhdDuration (body : List UInt8) (timescaleAt durationLen : Nat) : Walk ℚ := do
  let timescale := readBig (← rangeAt body timescaleAt (timescaleAt + 4))
  let durationAt := timescaleAt + 4
  let raw := readBig (← rangeAt body durationAt (durationAt + durationLen))
  if raw = 256 ^ durationLen - 1 then .error .malformed
  else if timescale = 0 then .error .malformed
  else return raw / timescale

/-- The times in front of the timescale are wide in version 1, as the duration is. -/
def mvhdBody (body : List UInt8) : Walk ℚ := do
  let version ← byteAt body 0
  if version = 0 then mvhdDuration body (4 + 8) 4
  else if version = 1 then mvhdDuration body (4 + 16) 8
  else .error .malformed

def mvhdSeconds (moov : List UInt8) : Nat → Nat → Walk ℚ
  | 0, _ => .error .unfinished
  | fuel + 1, place =>
      if place < moov.length then do
        let found ← isobmffBox moov place
        let letters ← slicedAt moov (← advance place 4) (← advance place 8)
        if letters = ascii "mvhd" then mvhdBody found.1
        else mvhdSeconds moov fuel found.2
      else .error .malformed

/-- The major brand, the minor version, and the compatible brands. -/
def ftypHasAvis (body : List UInt8) : Walk Bool :=
  if body.length < 8 then .error .malformed
  else do
    let major ← slicedAt body 0 4
    let compatible ← slicedAt body 8 body.length
    return major = ascii "avis" ∨ (Chunks.chunks 4 compatible).any (fun brand => brand = ascii "avis")

structure AvifTiming where
  hasAvis : Bool
  seconds : Option ℚ

/-- What a box's four letters and its body say. -/
def avifBox (timing : AvifTiming) (letters body : List UInt8) : Walk AvifTiming :=
  if letters = ascii "ftyp" then do
    let hasAvis ← ftypHasAvis body
    return { timing with hasAvis := hasAvis }
  else if letters = ascii "moov" then do
    let seconds ← attempt (mvhdSeconds body (body.length + 1) 0)
    return { timing with seconds := seconds }
  else .ok timing

def parseAvifBoxes (bytes : List UInt8) : Nat → Nat → AvifTiming → Walk AvifTiming
  | 0, _, _ => .error .unfinished
  | fuel + 1, place, timing =>
      if place < bytes.length then do
        let found ← isobmffBox bytes place
        let letters ← slicedAt bytes (← advance place 4) (← advance place 8)
        let timing ← avifBox timing letters found.1
        parseAvifBoxes bytes fuel found.2 timing
      else .ok timing

def AvifTiming.length (timing : AvifTiming) : ℚ := if timing.hasAvis then timing.seconds.getD 0 else 0

def parseAvif (bytes : Slice) : Walk ℚ := do
  let timing ← parseAvifBoxes bytes.list (bytes.list.length + 1) 0 ⟨false, none⟩
  return timing.length

def avifAnimationSeconds (bytes : Slice) : Walk ℚ := orStill (parseAvif bytes)

theorem settles_box_size {bytes : List UInt8} (bounded : bytes.length < 2 ^ 63) {place : Nat}
    (inside : place < bytes.length) (size32 : Nat) :
    Settles (fun sized => 8 ≤ sized.1 ∧ sized.1 ≤ 16) (boxSize bytes place size32) := by
  rw [boxSize]
  split
  · exact ⟨Nat.le_refl 8, Nat.le_add_right 8 8⟩
  split
  · refine (settles_advance (by omega)).bind fun start _ => ?_
    refine (settles_advance (by omega)).bind fun stop _ => ?_
    exact (settles_range_at bytes start stop).bind fun large _ => ⟨Nat.le_add_right 8 8, Nat.le_refl 16⟩
  · exact ⟨Nat.le_refl 8, Nat.le_add_right 8 8⟩

theorem settles_isobmff_box {bytes : List UInt8} (bounded : bytes.length < 2 ^ 63) {place : Nat}
    (inside : place < bytes.length) :
    Settles (fun found => place + 8 ≤ found.2 ∧ found.2 ≤ bytes.length ∧ found.1.length ≤ bytes.length)
      (isobmffBox bytes place) := by
  rw [isobmffBox]
  refine (settles_advance (by omega)).bind fun headerEnd isEnd => ?_
  subst isEnd
  refine (settles_range_at bytes place (place + 8)).bind fun header eight => ?_
  refine (settles_sliced_at (by omega) (by omega)).bind fun sizeBytes four => ?_
  refine (settles_box_size bounded inside _).bind fun sized widths => ?_
  split
  · rfl
  split
  · rfl
  rename_i long _
  refine (settles_advance (by omega)).bind fun start isStart => ?_
  refine (settles_range_at bytes start _).bind fun body within => ?_
  have short : body.length ≤ bytes.length := by omega
  exact ⟨by omega, within.1, short⟩

theorem settles_box_met {Result : Type} {Good : Result → Prop} {bytes : List UInt8} (bounded : bytes.length < 2 ^ 63)
    {place : Nat} (inside : place < bytes.length) {next : List UInt8 × Nat → List UInt8 → Walk Result}
    (after : ∀ found letters, place + 8 ≤ found.2 → found.2 ≤ bytes.length → found.1.length ≤ bytes.length →
      Settles Good (next found letters)) :
    Settles Good (do
      let found ← isobmffBox bytes place
      let letters ← slicedAt bytes (← advance place 4) (← advance place 8)
      next found letters) := by
  refine (settles_isobmff_box bounded inside).bind fun found reached => ?_
  refine (settles_advance (by omega)).bind fun lettersAt isAt => ?_
  refine (settles_advance (by omega)).bind fun lettersEnd isEnd => ?_
  subst isAt isEnd
  refine (settles_sliced_at (by omega) (by omega)).bind fun letters _ => ?_
  exact after found letters reached.1 reached.2.1 reached.2.2

variable (body : List UInt8)

theorem settles_mvhd_duration (timescaleAt durationLen : Nat) :
    Settles (fun _ => True) (mvhdDuration body timescaleAt durationLen) := by
  rw [mvhdDuration]
  refine (settles_range_at body _ _).bind fun timescale _ => ?_
  refine (settles_range_at body _ _).bind fun duration _ => ?_
  dsimp only
  split
  · rfl
  split
  · rfl
  · trivial

theorem settles_mvhd_body : Settles (fun _ => True) (mvhdBody body) := by
  rw [mvhdBody]
  refine (settles_byte_at body 0).bind fun version _ => ?_
  split
  · exact settles_mvhd_duration body _ _
  split
  · exact settles_mvhd_duration body _ _
  · rfl

theorem settles_mvhd_seconds {moov : List UInt8} (bounded : moov.length < 2 ^ 63) {fuel place : Nat}
    (fueled : 0 < fuel) (enough : moov.length < place + fuel) :
    Settles (fun _ => True) (mvhdSeconds moov fuel place) := by
  induction fuel generalizing place with
  | zero => omega
  | succ fuel ih =>
    rw [mvhdSeconds]
    split
    · rename_i inside
      refine settles_box_met bounded inside fun found letters past within short => ?_
      split
      · exact settles_mvhd_body found.1
      · exact ih (by omega) (by omega)
    · rfl

theorem settles_ftyp : Settles (fun _ => True) (ftypHasAvis body) := by
  rw [ftypHasAvis]
  split
  · rfl
  · refine (settles_sliced_at (by omega) (by omega)).bind fun major _ => ?_
    exact (settles_sliced_at (by omega) (by omega)).bind fun compatible _ => trivial

theorem settles_avif_box (timing : AvifTiming) (letters : List UInt8) {body : List UInt8}
    (bounded : body.length < 2 ^ 63) : Settles (fun _ => True) (avifBox timing letters body) := by
  rw [avifBox]
  split
  · exact (settles_ftyp body).bind fun hasAvis _ => trivial
  split
  · exact (settles_attempt (settles_mvhd_seconds bounded (by omega) (by omega))).bind fun seconds _ => trivial
  · trivial

theorem settles_avif_boxes {bytes : List UInt8} (bounded : bytes.length < 2 ^ 63) {fuel place : Nat}
    (timing : AvifTiming) (fueled : 0 < fuel) (enough : bytes.length < place + fuel) :
    Settles (fun _ => True) (parseAvifBoxes bytes fuel place timing) := by
  induction fuel generalizing place timing with
  | zero => omega
  | succ fuel ih =>
    rw [parseAvifBoxes]
    split
    · rename_i inside
      refine settles_box_met bounded inside fun found letters past within short => ?_
      refine (settles_avif_box timing letters (by omega)).bind fun after _ => ?_
      exact ih after (by omega) (by omega)
    · trivial

theorem settles_parse_avif (bytes : Slice) : Settles (fun _ => True) (parseAvif bytes) := by
  rw [parseAvif]
  exact (settles_avif_boxes bytes.bounded _ (by omega) (by omega)).bind fun timing _ => trivial

theorem avif_seconds_returns (bytes : Slice) : ∃ seconds, avifAnimationSeconds bytes = .ok seconds :=
  or_still_returns (settles_parse_avif bytes)

end Panoptikon.Media
