import Panoptikon.Foundation.ByteWalk

/-!
# The length of an animation

`parse_gif` and `parse_webp` of `media_tools/animation.rs`. A `None` of the source
is a walk that finds its bytes malformed; the sums of places test their width, and
the loops run on fuel. A total stays below the width of its counter in every slice
an address space holds, so totals are natural numbers, and a length is the quotient
whose nearest `f64` the source takes.
-/

namespace Panoptikon.Media

open Foundation

def ascii (text : String) : List UInt8 := text.toList.map fun letter => UInt8.ofNat letter.toNat

/-- Where `unwrap_or(0.0)` stands in the source. A walk that went wrong stays wrong. -/
def orStill : Walk ℚ → Walk ℚ
  | .error .malformed => .ok 0
  | walk => walk

def gifMinDelayCs : Nat := 1

def gifDefaultDelayCs : Nat := 10

structure GifTiming where
  frames : Nat
  pathologicalFrames : Nat
  totalCs : Nat

def GifTiming.seconds (timing : GifTiming) : ℚ :=
  if timing.frames < 2 then 0 else timing.totalCs / 100

def skipGifSubBlocks (bytes : List UInt8) : Nat → Nat → Walk Nat
  | 0, _ => .error .unfinished
  | fuel + 1, place => do
      let size ← byteAt bytes place
      let place ← advance place 1
      if size = 0 then return place
      else
        let next ← advance place size.toNat
        if bytes.length < next then .error .malformed
        else skipGifSubBlocks bytes fuel next

/-- The colour table a descriptor's packed field announces. -/
def skipColorTable (packed : UInt8) (place : Nat) : Walk Nat :=
  if packed &&& 0x80 ≠ 0 then advance place (3 <<< ((packed &&& 0x07).toNat + 1))
  else .ok place

/-- The delay that is pending behind an extension's label. -/
def gifPending (bytes : List UInt8) (label : UInt8) (place pendingCs : Nat) : Walk Nat :=
  if label = 0xF9 then do
    let size ← byteAt bytes place
    if 3 ≤ size.toNat then
      let low ← byteAt bytes (← advance place 2)
      let high ← byteAt bytes (← advance place 3)
      return readWord [low, high]
    else return pendingCs
  else .ok pendingCs

/-- One more frame, shown for the delay that is pending. -/
def GifTiming.render (timing : GifTiming) (pendingCs : Nat) : GifTiming :=
  if pendingCs ≤ gifMinDelayCs then
    { frames := timing.frames + 1
      pathologicalFrames := timing.pathologicalFrames + 1
      totalCs := timing.totalCs + gifDefaultDelayCs }
  else { timing with frames := timing.frames + 1, totalCs := timing.totalCs + pendingCs }

def parseGifBlocks (bytes : List UInt8) : Nat → Nat → Nat → GifTiming → Walk GifTiming
  | 0, _, _, _ => .error .unfinished
  | fuel + 1, place, pendingCs, timing => do
      let marker ← byteAt bytes place
      let place ← advance place 1
      if marker = 0x3B then return timing
      else if marker = 0x21 then
        let label ← byteAt bytes place
        let place ← advance place 1
        let pendingCs ← gifPending bytes label place pendingCs
        let place ← skipGifSubBlocks bytes (bytes.length + 1) place
        parseGifBlocks bytes fuel place pendingCs timing
      else if marker = 0x2C then
        let packed ← byteAt bytes (← advance place 8)
        let place ← advance place 9
        let place ← skipColorTable packed place
        let place ← advance place 1
        let place ← skipGifSubBlocks bytes (bytes.length + 1) place
        parseGifBlocks bytes fuel place 0 (timing.render pendingCs)
      else .error .malformed

/-- The signature in front of the screen descriptor. -/
def isGif (bytes : List UInt8) : Walk Bool :=
  if bytes.length < 13 then .ok false
  else do
    let signature ← slicedAt bytes 0 6
    return signature = ascii "GIF87a" ∨ signature = ascii "GIF89a"

def parseGif (bytes : Slice) : Walk GifTiming := do
  if ← isGif bytes.list then
    let packed ← indexed bytes.list 10
    let place ← skipColorTable packed 13
    parseGifBlocks bytes.list (bytes.list.length + 1) place 0 ⟨0, 0, 0⟩
  else .error .malformed

def gifAnimationSeconds (bytes : Slice) : Walk ℚ := orStill (GifTiming.seconds <$> parseGif bytes)

structure WebpTiming where
  animated : Bool
  frames : Nat
  totalMs : Nat

def WebpTiming.seconds (timing : WebpTiming) : ℚ :=
  if timing.animated = false ∨ timing.frames < 2 then 0 else timing.totalMs / 1000

/-- What a chunk's four letters and its body say. -/
def webpChunk (timing : WebpTiming) (letters body : List UInt8) : Walk WebpTiming :=
  if letters = ascii "VP8X" then do
    let flags ← byteAt body 0
    return { timing with animated := flags &&& 0x02 ≠ 0 }
  else if letters = ascii "ANMF" then do
    let duration ← rangeAt body 12 15
    let low ← indexed duration 0
    let middle ← indexed duration 1
    let high ← indexed duration 2
    return { timing with
      totalMs := timing.totalMs + (low.toNat ||| middle.toNat <<< 8 ||| high.toNat <<< 16)
      frames := timing.frames + 1 }
  else .ok timing

def parseWebpChunks (bytes : List UInt8) : Nat → Nat → WebpTiming → Walk WebpTiming
  | 0, _, _ => .error .unfinished
  | fuel + 1, place, timing =>
      if place < bytes.length then do
        let header ← rangeAt bytes place (← advance place 8)
        let size := readWord (← slicedAt header 4 8)
        let start ← advance place 8
        let body ← rangeAt bytes start (← advance start size)
        let timing ← webpChunk timing (← slicedAt header 0 4) body
        let next ← advance place (8 + size + (size &&& 1))
        parseWebpChunks bytes fuel next timing
      else .ok timing

/-- The RIFF header with the WebP signature. -/
def isWebp (bytes : List UInt8) : Walk Bool :=
  if bytes.length < 12 then .ok false
  else do
    let riff ← slicedAt bytes 0 4
    let form ← slicedAt bytes 8 12
    return riff = ascii "RIFF" ∧ form = ascii "WEBP"

def parseWebp (bytes : Slice) : Walk ℚ := do
  if ← isWebp bytes.list then
    let timing ← parseWebpChunks bytes.list (bytes.list.length + 1) 12 ⟨false, 0, 0⟩
    return timing.seconds
  else .error .malformed

def webpAnimationSeconds (bytes : Slice) : Walk ℚ := orStill (parseWebp bytes)

variable {bytes : List UInt8} {fuel place : Nat}

theorem settles_skip_gif_sub_blocks (bounded : bytes.length < 2 ^ 63)
    (fueled : 0 < fuel) (enough : bytes.length < place + fuel) :
    Settles (fun next => place < next ∧ next ≤ bytes.length) (skipGifSubBlocks bytes fuel place) := by
  induction fuel generalizing place with
  | zero => omega
  | succ fuel ih =>
    rw [skipGifSubBlocks]
    refine (settles_byte_at bytes place).bind fun size inside => ?_
    refine (settles_advance (by omega)).bind fun start isStart => ?_
    subst isStart
    split
    · exact ⟨Nat.lt_succ_self place, inside⟩
    · rename_i nonempty
      have positive : 0 < size.toNat := by
        rw [Nat.pos_iff_ne_zero]
        exact fun zero => nonempty (UInt8.toNat_inj.mp zero)
      have byte : size.toNat < 256 := size.toNat_lt
      refine (settles_advance (by omega)).bind fun next isNext => ?_
      subst isNext
      split
      · rfl
      · rename_i fits
        refine (ih (by omega) (by omega)).weaken fun last behind => ?_
        exact ⟨by omega, behind.2⟩

theorem color_table_small (packed : UInt8) : 3 <<< ((packed &&& 0x07).toNat + 1) ≤ 768 := by
  have three : (packed &&& 0x07).toNat ≤ 7 := by
    rw [UInt8.toNat_and]
    exact Nat.and_le_right
  rw [Nat.shiftLeft_eq]
  have power : 2 ^ ((packed &&& 0x07).toNat + 1) ≤ 2 ^ 8 := Nat.pow_le_pow_right (by decide) (by omega)
  omega

theorem settles_skip_color_table {place : Nat} (packed : UInt8) (bounded : place < 2 ^ 63 + 16) :
    Settles (fun next => place ≤ next ∧ next ≤ place + 768) (skipColorTable packed place) := by
  have small := color_table_small packed
  rw [skipColorTable]
  split
  · refine (settles_advance (by omega)).weaken fun next isNext => ?_
    rw [isNext]
    exact ⟨Nat.le_add_right _ _, Nat.add_le_add_left small place⟩
  · exact ⟨Nat.le_refl place, Nat.le_add_right place 768⟩

theorem settles_gif_pending (bounded : bytes.length < 2 ^ 63) (label : UInt8)
    {place : Nat} (inside : place ≤ bytes.length) (pendingCs : Nat) :
    Settles (fun _ => True) (gifPending bytes label place pendingCs) := by
  have low : place < 2 ^ 63 := Nat.lt_of_le_of_lt inside bounded
  rw [gifPending]
  split
  · refine (settles_byte_at bytes place).bind fun size _ => ?_
    split
    · refine (settles_advance (by omega)).bind fun lowAt _ => ?_
      refine (settles_byte_at bytes lowAt).bind fun low _ => ?_
      refine (settles_advance (by omega)).bind fun highAt _ => ?_
      exact (settles_byte_at bytes highAt).bind fun high _ => trivial
    · trivial
  · trivial

/-- A block is behind the marker it starts with, so the bytes outlast no fuel. -/
theorem settles_gif_blocks (bounded : bytes.length < 2 ^ 63)
    (pendingCs : Nat) (timing : GifTiming) (fueled : 0 < fuel) (enough : bytes.length < place + fuel) :
    Settles (fun _ => True) (parseGifBlocks bytes fuel place pendingCs timing) := by
  induction fuel generalizing place pendingCs timing with
  | zero => omega
  | succ fuel ih =>
    rw [parseGifBlocks]
    refine (settles_byte_at bytes place).bind fun marker inside => ?_
    refine (settles_advance (by omega)).bind fun start isStart => ?_
    subst isStart
    split
    · trivial
    split
    · refine (settles_byte_at bytes (place + 1)).bind fun label labelled => ?_
      refine (settles_advance (by omega)).bind fun behind isBehind => ?_
      subst isBehind
      refine (settles_gif_pending bounded label (by omega) pendingCs).bind fun pending _ => ?_
      refine (settles_skip_gif_sub_blocks bounded (by omega) (by omega)).bind fun next reached => ?_
      exact ih pending timing (by omega) (by omega)
    split
    · refine (settles_advance (by omega)).bind fun packedAt isPacked => ?_
      subst isPacked
      refine (settles_byte_at bytes (place + 1 + 8)).bind fun packed within => ?_
      refine (settles_advance (by omega)).bind fun tableAt isTable => ?_
      subst isTable
      refine (settles_skip_color_table packed (by omega)).bind fun codeAt passed => ?_
      refine (settles_advance (by omega)).bind fun dataAt isData => ?_
      subst isData
      refine (settles_skip_gif_sub_blocks bounded (by omega) (by omega)).bind fun next reached => ?_
      exact ih 0 (timing.render pendingCs) (by omega) (by omega)
    · rfl

theorem settles_is_gif (bytes : List UInt8) : Settles (fun is => is = true → 13 ≤ bytes.length) (isGif bytes) := by
  rw [isGif]
  split
  · exact fun absurd => nomatch absurd
  · rename_i long
    refine (settles_sliced_at (by omega) (by omega)).bind fun signature _ => ?_
    exact fun _ => by omega

theorem settles_parse_gif (bytes : Slice) : Settles (fun _ => True) (parseGif bytes) := by
  have bounded := bytes.bounded
  rw [parseGif]
  refine (settles_is_gif bytes.list).bind fun is long => ?_
  split
  · rename_i isTrue
    have atLeast := long isTrue
    refine (settles_indexed (by omega)).bind fun packed _ => ?_
    refine (settles_skip_color_table packed (by omega)).bind fun place reached => ?_
    exact settles_gif_blocks bounded 0 ⟨0, 0, 0⟩ (by omega) (by omega)
  · rfl

theorem settles_webp_chunk (timing : WebpTiming) (letters body : List UInt8) :
    Settles (fun _ => True) (webpChunk timing letters body) := by
  rw [webpChunk]
  split
  · exact (settles_byte_at body 0).bind fun flags _ => trivial
  split
  · refine (settles_range_at body 12 15).bind fun duration three => ?_
    refine (settles_indexed (by omega)).bind fun low _ => ?_
    refine (settles_indexed (by omega)).bind fun middle _ => ?_
    exact (settles_indexed (by omega)).bind fun high _ => trivial
  · trivial

theorem read_word_lt (bytes : List UInt8) : readWord bytes < 256 ^ bytes.length := by
  induction bytes with
  | nil => decide
  | cons low rest ih =>
    have byte : low.toNat < 256 := low.toNat_lt
    rw [readWord, List.length_cons, pow_succ]
    omega

theorem settles_webp_chunks (bounded : bytes.length < 2 ^ 63)
    (timing : WebpTiming) (fueled : 0 < fuel) (enough : bytes.length < place + fuel) :
    Settles (fun _ => True) (parseWebpChunks bytes fuel place timing) := by
  induction fuel generalizing place timing with
  | zero => omega
  | succ fuel ih =>
    rw [parseWebpChunks]
    split
    · rename_i inside
      refine (settles_advance (by omega)).bind fun headerEnd isEnd => ?_
      subst isEnd
      refine (settles_range_at bytes place (place + 8)).bind fun header eight => ?_
      refine (settles_sliced_at (by omega) (by omega)).bind fun sizeBytes four => ?_
      have small : readWord sizeBytes < 256 ^ 4 := by
        have below := read_word_lt sizeBytes
        rwa [four] at below
      refine (settles_advance (by omega)).bind fun start isStart => ?_
      subst isStart
      refine (settles_advance (by omega)).bind fun stop isStop => ?_
      subst isStop
      refine (settles_range_at bytes (place + 8) _).bind fun body within => ?_
      refine (settles_sliced_at (by omega) (by omega)).bind fun letters _ => ?_
      refine (settles_webp_chunk timing letters body).bind fun after _ => ?_
      have pad : readWord sizeBytes &&& 1 ≤ 1 := Nat.and_le_right
      refine (settles_advance (by omega)).bind fun next isNext => ?_
      subst isNext
      exact ih after (by omega) (by omega)
    · trivial

theorem settles_parse_webp (bytes : Slice) : Settles (fun _ => True) (parseWebp bytes) := by
  have bounded := bytes.bounded
  rw [parseWebp]
  have signed : Settles (fun _ => True) (isWebp bytes.list) := by
    rw [isWebp]
    split
    · trivial
    · refine (settles_sliced_at (by omega) (by omega)).bind fun riff _ => ?_
      exact (settles_sliced_at (by omega) (by omega)).bind fun form _ => trivial
  refine signed.bind fun is _ => ?_
  split
  · exact (settles_webp_chunks bounded ⟨false, 0, 0⟩ (by omega) (by omega)).bind fun timing _ => trivial
  · rfl

theorem or_still_returns {Holds : ℚ → Prop} {walk : Walk ℚ} (settles : Settles Holds walk) :
    ∃ seconds, orStill walk = .ok seconds := by
  obtain ⟨seconds, returned, _⟩ | malformed := settles.cases
  · exact ⟨seconds, by rw [returned]; rfl⟩
  · exact ⟨0, by rw [malformed]; rfl⟩

theorem gif_seconds_returns (bytes : Slice) : ∃ seconds, gifAnimationSeconds bytes = .ok seconds := by
  have measured : Settles (fun _ => True) (GifTiming.seconds <$> parseGif bytes) :=
    (settles_parse_gif bytes).bind fun _ _ => trivial
  exact or_still_returns measured

theorem webp_seconds_returns (bytes : Slice) : ∃ seconds, webpAnimationSeconds bytes = .ok seconds :=
  or_still_returns (settles_parse_webp bytes)

end Panoptikon.Media
