import Panoptikon.Media.GifFiles

/-!
# WebP files, and what is measured of a container

A WebP file is a RIFF list of chunks in any order, each padded to an even length.
The length measured of a well-formed container is the one it plays for, up to the
delays that plain text strands in a GIF.
-/

namespace Panoptikon.Media

open Foundation

/-- What a chunk holds: the features of the extended header, a frame, or what the length
does not depend on. -/
inductive ChunkBody where
  | features (flags : UInt8) (reserved : List UInt8)
  | frame (rectangle : List UInt8) (twelve : rectangle.length = 12) (duration : Nat)
      (short : duration < 2 ^ 24) (data : List UInt8)
  | other (letters : List UInt8) (four : letters.length = 4) (noFeatures : letters ≠ ascii "VP8X")
      (noFrame : letters ≠ ascii "ANMF") (bytes : List UInt8)

structure Chunk where
  body : ChunkBody
  pad : UInt8

def ChunkBody.letters : ChunkBody → List UInt8
  | .features .. => ascii "VP8X"
  | .frame .. => ascii "ANMF"
  | .other letters .. => letters

def ChunkBody.bytes : ChunkBody → List UInt8
  | .features flags reserved => flags :: reserved
  | .frame rectangle _ duration _ data => rectangle ++ (writeWord 3 duration ++ data)
  | .other _ _ _ _ bytes => bytes

/-- The pad byte of an odd length. -/
def Chunk.padding (chunk : Chunk) : List UInt8 :=
  if chunk.body.bytes.length % 2 = 1 then [chunk.pad] else []

def Chunk.encode (chunk : Chunk) : List UInt8 :=
  chunk.body.letters ++ (writeWord 4 chunk.body.bytes.length ++ (chunk.body.bytes ++ chunk.padding))

def ChunkBody.isFeatures : ChunkBody → Bool
  | .features .. => true
  | _ => false

def ChunkBody.isAnimated : ChunkBody → Bool
  | .features flags _ => flags &&& 0x02 ≠ 0
  | _ => false

def ChunkBody.duration? : ChunkBody → Option Nat
  | .frame _ _ duration _ _ => some duration
  | _ => none

/-- A WebP, with at most one extended header. -/
structure Webp where
  chunks : List Chunk
  header : chunks.countP (fun chunk => chunk.body.isFeatures) ≤ 1
  fits : 4 + (chunks.flatMap Chunk.encode).length < 2 ^ 32

def encodeWebp (chunks : List Chunk) : List UInt8 :=
  ascii "RIFF" ++ (writeWord 4 (4 + (chunks.flatMap Chunk.encode).length) ++
    (ascii "WEBP" ++ chunks.flatMap Chunk.encode))

variable (chunks : List Chunk)

theorem encode_webp_length : (encodeWebp chunks).length = 12 + (chunks.flatMap Chunk.encode).length := by
  have four : (ascii "RIFF").length = 4 ∧ (ascii "WEBP").length = 4 := by decide
  rw [encodeWebp, List.length_append, List.length_append, List.length_append, write_word_length, four.1, four.2]
  omega

def Webp.encode (webp : Webp) : Slice :=
  ⟨encodeWebp webp.chunks, by
    have fits := webp.fits
    rw [encode_webp_length]
    omega⟩

def Webp.durations (webp : Webp) : List Nat := webp.chunks.filterMap fun chunk => chunk.body.duration?

/-- How long a WebP plays for. -/
def Webp.duration (webp : Webp) : ℚ :=
  if webp.chunks.any (fun chunk => chunk.body.isAnimated) ∧ 2 ≤ webp.durations.length then
    webp.durations.sum / 1000
  else 0

def ChunkBody.timingAfter (body : ChunkBody) (timing : WebpTiming) : WebpTiming :=
  match body with
  | .features flags _ => { timing with animated := flags &&& 0x02 ≠ 0 }
  | .frame _ _ duration _ _ =>
      { timing with totalMs := timing.totalMs + duration, frames := timing.frames + 1 }
  | .other .. => timing

theorem letters_length (body : ChunkBody) : body.letters.length = 4 := by
  cases body with
  | features flags reserved => exact (by decide : (ascii "VP8X").length = 4)
  | frame rectangle twelve duration short data => exact (by decide : (ascii "ANMF").length = 4)
  | other letters four noFeatures noFrame bytes => exact four

theorem three_bytes (low middle high : UInt8) :
    low.toNat ||| middle.toNat <<< 8 ||| high.toNat <<< 16 = readWord [low, middle, high] := by
  have lowByte := low.toNat_lt
  have middleByte := middle.toNat_lt
  have first : low.toNat ||| middle.toNat <<< 8 = middle.toNat <<< 8 + low.toNat := by
    rw [Nat.or_comm, ← Nat.shiftLeft_add_eq_or_of_lt lowByte]
  have two : middle.toNat <<< 8 + low.toNat < 2 ^ 16 := by
    rw [Nat.shiftLeft_eq]
    omega
  rw [first, Nat.or_comm, ← Nat.shiftLeft_add_eq_or_of_lt two, Nat.shiftLeft_eq, Nat.shiftLeft_eq]
  simp only [readWord]
  omega

theorem webp_chunk_body (body : ChunkBody) (timing : WebpTiming) :
    webpChunk timing body.letters body.bytes = .ok (body.timingAfter timing) := by
  have differ : ascii "ANMF" ≠ ascii "VP8X" := by decide
  cases body with
  | features flags reserved =>
    have letters : (ChunkBody.features flags reserved).letters = ascii "VP8X" := rfl
    rw [webpChunk, if_pos letters]
    rfl
  | frame rectangle twelve duration short data =>
    have letters : (ChunkBody.frame rectangle twelve duration short data).letters = ascii "ANMF" := rfl
    have behind : Ahead (rectangle ++ (writeWord 3 duration ++ data)) 12 (writeWord 3 duration ++ data) :=
      (Ahead.start _).pass_of_length twelve
    have range : rangeAt (ChunkBody.frame rectangle twelve duration short data).bytes 12 15 =
        .ok (writeWord 3 duration) :=
      behind.range_at (by rw [write_word_length])
    have word : readWord [UInt8.ofNat duration, UInt8.ofNat (duration / 256),
        UInt8.ofNat (duration / 256 / 256)] = duration :=
      @read_write_word 3 duration (by omega)
    rw [webpChunk, letters, if_neg differ, if_pos rfl, range]
    simp only [bind, Except.bind, writeWord, indexed, List.getElem?_cons_zero, List.getElem?_cons_succ,
      three_bytes, word]
    rfl
  | other letters four noFeatures noFrame bytes =>
    rw [webpChunk]
    exact (if_neg noFeatures).trans (if_neg noFrame)

variable (chunk : Chunk)

theorem chunk_length :
    chunk.encode.length = 8 + chunk.body.bytes.length + chunk.body.bytes.length % 2 := by
  have padding : chunk.padding.length = chunk.body.bytes.length % 2 := by
    rw [Chunk.padding]
    split
    · rename_i odd
      rw [odd, List.length_singleton]
    · rename_i even
      rw [List.length_nil]
      omega
  rw [Chunk.encode, List.length_append, List.length_append, List.length_append, letters_length,
    write_word_length, padding]
  omega

/-- What is written in front of a chunk's body. -/
def Chunk.head (chunk : Chunk) : List UInt8 := chunk.body.letters ++ writeWord 4 chunk.body.bytes.length

theorem head_length : chunk.head.length = 8 := by
  rw [Chunk.head, List.length_append, letters_length, write_word_length]

theorem encode_chunk : chunk.encode = chunk.head ++ (chunk.body.bytes ++ chunk.padding) := by
  rw [Chunk.encode, Chunk.head, List.append_assoc]

theorem size_of_head : slicedAt chunk.head 4 8 = .ok (writeWord 4 chunk.body.bytes.length) := by
  have behind : Ahead chunk.head 4 (writeWord 4 chunk.body.bytes.length ++ []) := by
    rw [List.append_nil]
    exact (Ahead.start chunk.head).pass_of_length (letters_length chunk.body)
  exact behind.sliced_at (by rw [write_word_length])

theorem letters_of_head : slicedAt chunk.head 0 4 = .ok chunk.body.letters := by
  have start : Ahead chunk.head 0 (chunk.body.letters ++ writeWord 4 chunk.body.bytes.length) := Ahead.start _
  exact start.sliced_at (by rw [letters_length])

theorem parse_chunk {bytes behind : List UInt8} (bounded : bytes.length < 2 ^ 63) (chunk : Chunk)
    (fits : chunk.body.bytes.length < 2 ^ 32) {place : Nat}
    (ahead : Ahead bytes place (chunk.head ++ (chunk.body.bytes ++ behind))) (fuel : Nat) (timing : WebpTiming) :
    parseWebpChunks bytes (fuel + 1) place timing =
      parseWebpChunks bytes fuel (place + chunk.encode.length) (chunk.body.timingAfter timing) := by
  have inside := ahead.length_eq
  have long := chunk_length chunk
  have head := head_length chunk
  have body := ahead.pass_of_length head
  rw [List.length_append] at inside
  rw [parseWebpChunks, if_pos (by omega), ahead.advance bounded (by decide)]
  simp only [bind, Except.bind]
  rw [ahead.range_at (by rw [head])]
  simp only
  rw [size_of_head]
  simp only
  rw [read_write_word fits, body.advance bounded (by omega)]
  simp only
  rw [body.range_at rfl]
  simp only
  rw [letters_of_head]
  simp only
  rw [webp_chunk_body]
  simp only
  rw [Nat.and_one_is_mod, ← long, ahead.advance bounded (by omega)]

theorem chunks_length_le : chunks.length ≤ (chunks.flatMap Chunk.encode).length := by
  induction chunks with
  | nil => exact Nat.le_refl 0
  | cons chunk chunks ih =>
    have long := chunk_length chunk
    rw [List.flatMap_cons, List.length_append, List.length_cons]
    omega

theorem parse_chunks {bytes : List UInt8} (bounded : bytes.length < 2 ^ 63) (chunks : List Chunk)
    (fits : (chunks.flatMap Chunk.encode).length < 2 ^ 32) {place : Nat}
    (ahead : Ahead bytes place (chunks.flatMap Chunk.encode)) {fuel : Nat} (enough : chunks.length < fuel)
    (timing : WebpTiming) : parseWebpChunks bytes fuel place timing =
      .ok (chunks.foldl (fun timing chunk => chunk.body.timingAfter timing) timing) := by
  induction chunks generalizing place fuel timing with
  | nil =>
    obtain ⟨more, rfl⟩ := Nat.exists_eq_add_of_lt enough
    have ended := ahead.length_eq
    rw [List.flatMap_nil, List.length_nil] at ended
    rw [parseWebpChunks, if_neg (by omega)]
    rfl
  | cons chunk chunks ih =>
    obtain ⟨more, rfl⟩ := Nat.exists_eq_add_of_lt enough
    have long := chunk_length chunk
    rw [List.flatMap_cons, List.length_append] at fits
    rw [List.flatMap_cons] at ahead
    have whole := ahead
    rw [encode_chunk, List.append_assoc, List.append_assoc] at whole
    rw [parse_chunk bounded chunk (by omega) whole, ih (by omega) ahead.pass (by rw [List.length_cons]; omega)]
    rfl

/-- What the walk of the chunks ends with. -/
def walkedChunks (timing : WebpTiming) (chunks : List Chunk) : WebpTiming :=
  chunks.foldl (fun timing chunk => chunk.body.timingAfter timing) timing

theorem parse_webp_encode (webp : Webp) :
    parseWebp webp.encode = .ok (walkedChunks ⟨false, 0, 0⟩ webp.chunks).seconds := by
  have fits := webp.fits
  have long := encode_webp_length webp.chunks
  have short := chunks_length_le webp.chunks
  have riffLength : (ascii "RIFF").length = 4 := by decide
  have formLength : (ascii "WEBP").length = 4 := by decide
  have start := Ahead.start webp.encode.list
  have form := (start.pass_of_length riffLength).pass_of_length (write_word_length 4 _)
  have signed : isWebp webp.encode.list = .ok true := by
    rw [isWebp, if_neg (by rw [Webp.encode, long]; omega), start.sliced_at (by rw [riffLength])]
    simp only [bind, Except.bind]
    rw [form.sliced_at (by rw [formLength])]
    exact congrArg Except.ok (decide_eq_true ⟨trivial, rfl⟩)
  rw [parseWebp, signed]
  simp only [bind, Except.bind, if_true]
  rw [parse_chunks webp.encode.bounded webp.chunks (by omega) (form.pass_of_length formLength)
    (by rw [Webp.encode, long]; omega)]
  rfl

theorem walked_durations (timing : WebpTiming) : let durations := chunks.filterMap fun chunk => chunk.body.duration?
    (walkedChunks timing chunks).frames = timing.frames + durations.length ∧
      (walkedChunks timing chunks).totalMs = timing.totalMs + durations.sum := by
  induction chunks generalizing timing with
  | nil => exact ⟨rfl, rfl⟩
  | cons chunk chunks ih =>
    obtain ⟨body, pad⟩ := chunk
    cases body with
    | features flags reserved => exact ih _
    | frame rectangle twelve duration short data =>
      obtain ⟨frames, total⟩ := ih ((ChunkBody.frame rectangle twelve duration short data).timingAfter timing)
      refine ⟨frames.trans ?_, total.trans ?_⟩
      · simp only [ChunkBody.timingAfter, ChunkBody.duration?, List.filterMap_cons, List.length_cons]
        omega
      · simp only [ChunkBody.timingAfter, ChunkBody.duration?, List.filterMap_cons, List.sum_cons]
        omega
    | other letters four noFeatures noFrame bytes => exact ih _

theorem walked_plain (timing : WebpTiming) (plain : chunks.countP (fun chunk => chunk.body.isFeatures) = 0) :
    (walkedChunks timing chunks).animated = timing.animated ∧
      chunks.any (fun chunk => chunk.body.isAnimated) = false := by
  induction chunks generalizing timing with
  | nil => exact ⟨rfl, rfl⟩
  | cons chunk chunks ih =>
    obtain ⟨body, pad⟩ := chunk
    rw [List.countP_cons] at plain
    cases body with
    | features flags reserved => exact absurd plain (Nat.succ_ne_zero _)
    | frame | other => exact ih _ plain

/-- Wherever the extended header stands, its flag is the one that is read. -/
theorem walked_animated (timing : WebpTiming) (still : timing.animated = false)
    (header : chunks.countP (fun chunk => chunk.body.isFeatures) ≤ 1) :
    (walkedChunks timing chunks).animated = chunks.any (fun chunk => chunk.body.isAnimated) := by
  induction chunks generalizing timing with
  | nil => exact still
  | cons chunk chunks ih =>
    obtain ⟨body, pad⟩ := chunk
    rw [List.countP_cons] at header
    cases body with
    | features flags reserved =>
      have rest : chunks.countP (fun chunk => chunk.body.isFeatures) = 0 := by
        simpa [ChunkBody.isFeatures] using header
      obtain ⟨animated, none⟩ := walked_plain chunks
        ((ChunkBody.features flags reserved).timingAfter timing) rest
      rw [List.any_cons, none, Bool.or_false]
      exact animated
    | frame | other => exact ih _ still header

theorem webp_measured (webp : Webp) : webpAnimationSeconds webp.encode = .ok webp.duration := by
  obtain ⟨frames, total⟩ := walked_durations webp.chunks ⟨false, 0, 0⟩
  have animated := walked_animated webp.chunks ⟨false, 0, 0⟩ rfl webp.header
  rw [webpAnimationSeconds, parse_webp_encode]
  show Except.ok (WebpTiming.seconds _) = _
  rw [WebpTiming.seconds, animated, frames, total, Webp.duration, Nat.zero_add, Nat.zero_add]
  congr 1
  cases webp.chunks.any (fun chunk => chunk.body.isAnimated) with
  | false => simp
  | true =>
    by_cases few : webp.durations.length < 2
    · have notTwo : ¬2 ≤ webp.durations.length := by omega
      simp only [Webp.durations] at few notTwo ⊢
      simp only [few, notTwo, or_true, and_false, if_true, if_false]
    · have two : 2 ≤ webp.durations.length := by omega
      simp only [Webp.durations] at few two ⊢
      simp only [few, two, and_self, or_false, if_true, Bool.true_eq_false, if_false]

inductive Container where
  | gif (file : Gif)
  | webp (file : Webp)

/-- What the source measures of a container's bytes. -/
def Container.measured : Container → Walk ℚ
  | .gif file => gifAnimationSeconds file.encode
  | .webp file => webpAnimationSeconds file.encode

def Container.duration : Container → ℚ
  | .gif file => file.duration
  | .webp file => file.duration

def Container.DelaysKept : Container → Prop
  | .gif file => file.DelaysKept
  | .webp _ => True

/-- The length measured of a well-formed container is its own exactly when no delay that plain
text strands makes a difference, and of any bytes at all some length is measured. -/
theorem container_measured_iff (container : Container) (bytes : Slice) :
    (container.measured = .ok container.duration ↔ container.DelaysKept) ∧
      (∃ seconds, gifAnimationSeconds bytes = .ok seconds) ∧
        ∃ seconds, webpAnimationSeconds bytes = .ok seconds := by
  refine ⟨?_, gif_seconds_returns bytes, webp_seconds_returns bytes⟩
  cases container with
  | gif file => exact gif_measured_iff file
  | webp file => exact iff_of_true (webp_measured file) trivial

def unitTable : ColorTable := ⟨0, [], rfl⟩

def unitImage : GifBlock :=
  .image ⟨[0, 0, 0, 0, 1, 0, 1, 0], rfl⟩ unitTable 2 [⟨[0x44, 0x01], by decide, by decide⟩]

/-- A caption on a grid of one character cell. -/
def caption : GifBlock :=
  .extension .plainText
    [⟨[0, 0, 0, 0, 8, 0, 8, 0, 8, 8, 1, 0], by decide, by decide⟩, ⟨[0x48, 0x69], by decide, by decide⟩]

/-- Half a second of caption, then two images for a tenth of a second each. -/
def captioned : Gif where
  signature := ascii "GIF89a"
  size := [1, 0, 1, 0]
  table := unitTable
  background := 0
  aspect := 0
  blocks := [.graphicControl 0 50 0, caption, unitImage, .graphicControl 0 10 0, unitImage]
  signed := .inr rfl
  sized := rfl
  bounded := by decide

/-- The caption's half second is measured as the first image's. -/
theorem caption_delay_is_stranded :
    (Container.gif captioned).duration = 20 / 100 ∧ (Container.gif captioned).measured = .ok (60 / 100) := by
  have shown : frameDelays none captioned.blocks = [0, 10] := rfl
  have carried : carriedDelays 0 captioned.blocks = [50, 10] := rfl
  refine ⟨?_, ?_⟩
  · rw [Container.duration, Gif.duration, shown]
    norm_num [normalizedCs, gifMinDelayCs, gifDefaultDelayCs]
  · rw [Container.measured, gif_seconds_encode, carried]
    norm_num [normalizedCs, gifMinDelayCs, gifDefaultDelayCs]

end Panoptikon.Media
