import Panoptikon.Foundation.CutBytes
import Panoptikon.Media.Containers

/-!
# WebP files that are cut off

The walk does not hold the size that the RIFF header tells against the bytes, and takes the
end of the bytes for the end of the chunks.
-/

namespace Panoptikon.Media

open Foundation

/-- The walk steps over a pad byte that is not there. -/
def Chunk.lacksPad (chunk : Chunk) (left : Nat) : Bool :=
  chunk.body.bytes.length % 2 = 1 && left + 1 = chunk.encode.length

/-- The chunks that a cut leaves, when it falls behind a chunk or in front of a pad byte. -/
def chunksLeft (count : Nat) (chunks : List Chunk) : Option (List Chunk) :=
  (remains (fun chunk => chunk.encode.length) Chunk.lacksPad count chunks).map fun left => left.map Prod.fst

theorem parse_ended {bytes : List UInt8} {place fuel : Nat} (ended : bytes.length ≤ place) (fueled : 0 < fuel)
    (timing : WebpTiming) : parseWebpChunks bytes fuel place timing = .ok timing := by
  obtain ⟨more, rfl⟩ := Nat.exists_eq_add_of_lt fueled
  rw [Nat.zero_add, parseWebpChunks, if_neg (by omega)]

theorem parse_short_chunk {bytes : List UInt8} (bounded : bytes.length < 2 ^ 63) (chunk : Chunk)
    (fits : chunk.body.bytes.length < 2 ^ 32) {place left fuel : Nat}
    (ahead : Ahead bytes place (chunk.encode.take left)) (some : 0 < left)
    (short : left < 8 + chunk.body.bytes.length) (fueled : 0 < fuel) (timing : WebpTiming) :
    parseWebpChunks bytes fuel place timing = .error .malformed := by
  obtain ⟨more, rfl⟩ := Nat.exists_eq_add_of_lt fueled
  have long := chunk_length chunk
  have inside := ahead.length_eq
  rw [List.length_take, Nat.min_eq_left (by omega)] at inside
  rw [Nat.zero_add, parseWebpChunks, if_pos (by omega), ahead.advance bounded (by decide)]
  simp only [bind, Except.bind]
  by_cases headless : left < 8
  · rw [range_cut (by omega)]
  · have written : chunk.encode.take left =
        chunk.head ++ (chunk.body.bytes ++ chunk.padding).take (left - 8) := by
      rw [encode_chunk]
      exact take_behind (head_length chunk) _ (by omega)
    rw [written] at ahead
    have body := ahead.pass_of_length (head_length chunk)
    rw [ahead.range_at (by rw [head_length])]
    simp only
    rw [size_of_head]
    simp only
    rw [read_write_word fits, body.advance bounded (by omega)]
    simp only
    rw [range_cut (by omega)]

theorem take_unpadded {chunk : Chunk} {left : Nat} (lacks : chunk.lacksPad left = true) :
    chunk.encode.take left = chunk.head ++ (chunk.body.bytes ++ []) := by
  rw [Chunk.lacksPad, Bool.and_eq_true, decide_eq_true_iff, decide_eq_true_iff] at lacks
  have long := chunk_length chunk
  have isLeft : (chunk.head ++ chunk.body.bytes).length = left := by
    rw [List.length_append, head_length]
    omega
  rw [encode_chunk, ← List.append_assoc, List.append_nil]
  exact List.take_left' isLeft

/-- Induction on the chunks: what is walked of a cut is walked to the end of the chunks that are left, or is
malformed. -/
theorem parse_cut_chunks {bytes : List UInt8} (bounded : bytes.length < 2 ^ 63) (chunks : List Chunk)
    (fits : (chunks.flatMap Chunk.encode).length < 2 ^ 32) {count place fuel : Nat}
    (ahead : Ahead bytes place ((chunks.flatMap Chunk.encode).take count)) (enough : bytes.length < place + fuel)
    (timing : WebpTiming) : parseWebpChunks bytes fuel place timing =
      (chunksLeft count chunks).elim (.error .malformed) fun left => .ok (walkedChunks timing left) := by
  induction chunks generalizing count place fuel timing with
  | nil =>
    have inside := ahead.length_eq
    rw [List.flatMap_nil, List.take_nil, List.length_nil] at inside
    rw [parse_ended (by omega) (by omega)]
    cases count <;> rfl
  | cons chunk later ih =>
    rw [List.flatMap_cons, List.length_append] at fits
    rw [List.flatMap_cons] at ahead
    have inside := ahead.length_eq
    have long := chunk_length chunk
    cases count with
    | zero =>
      rw [List.take_zero, List.length_nil] at inside
      rw [parse_ended (by omega) (by omega)]
      rfl
    | succ count =>
      rw [chunksLeft, remains]
      by_cases whole : chunk.encode.length ≤ count + 1
      · rw [take_behind rfl _ whole] at ahead inside
        rw [List.length_append] at inside
        have begins := ahead
        rw [encode_chunk, List.append_assoc, List.append_assoc] at begins
        obtain ⟨fuel, rfl⟩ : ∃ more, fuel = more + 1 := ⟨fuel - 1, by omega⟩
        have rest := ahead.pass
        rw [parse_chunk bounded chunk (by omega) begins, if_pos whole,
          ih (by omega) rest (by omega), chunksLeft]
        cases remains (fun chunk => chunk.encode.length) Chunk.lacksPad (count + 1 - chunk.encode.length) later <;>
          rfl
      · rw [take_within _ (by omega)] at ahead inside
        rw [List.length_take, Nat.min_eq_left (by omega)] at inside
        rw [if_neg whole]
        cases lacks : chunk.lacksPad (count + 1) with
        | true =>
          rw [take_unpadded lacks] at ahead
          obtain ⟨fuel, rfl⟩ : ∃ more, fuel = more + 1 := ⟨fuel - 1, by omega⟩
          rw [parse_chunk bounded chunk (by omega) ahead, parse_ended (by omega) (by omega)]
          rfl
        | false =>
          rw [Chunk.lacksPad, Bool.and_eq_false_iff, decide_eq_false_iff_not, decide_eq_false_iff_not] at lacks
          rw [parse_short_chunk bounded chunk (by omega) ahead (by omega) (by omega) (by omega)]
          rfl

/-- Two frames and more that take time, behind an extended header that tells of an animation. -/
def PlaysOn (chunks : List Chunk) : Prop :=
  chunks.any (fun chunk => chunk.body.isAnimated) = true ∧
    2 ≤ (chunks.filterMap fun chunk => chunk.body.duration?).length ∧
    0 < (chunks.filterMap fun chunk => chunk.body.duration?).sum

theorem walked_still_iff (chunks : List Chunk) (header : chunks.countP (fun chunk => chunk.body.isFeatures) ≤ 1) :
    (walkedChunks ⟨false, 0, 0⟩ chunks).seconds = 0 ↔ ¬PlaysOn chunks := by
  obtain ⟨frames, total⟩ := walked_durations chunks ⟨false, 0, 0⟩
  have animated := walked_animated chunks ⟨false, 0, 0⟩ rfl header
  rw [WebpTiming.seconds, animated, frames, total, PlaysOn, Nat.zero_add, Nat.zero_add]
  generalize chunks.any (fun chunk => chunk.body.isAnimated) = flag
  generalize (chunks.filterMap fun chunk => chunk.body.duration?) = durations
  split
  · rename_i still
    refine iff_of_true rfl ?_
    rintro ⟨flagged, two, -⟩
    rcases still with unflagged | few
    · rw [flagged] at unflagged
      cases unflagged
    · omega
  · rename_i plays
    rw [not_or, Bool.not_eq_false, Nat.not_lt] at plays
    rw [div_eq_zero_iff, or_iff_left (by norm_num), Nat.cast_eq_zero]
    constructor
    · rintro still ⟨-, -, positive⟩
      omega
    · intro none
      apply Nat.eq_zero_of_not_pos
      intro positive
      exact none ⟨plays.1, plays.2, positive⟩

theorem take_webp (chunks : List Chunk) {count : Nat} (long : 12 ≤ count) : (encodeWebp chunks).take count =
      ascii "RIFF" ++ (writeWord 4 (4 + (chunks.flatMap Chunk.encode).length) ++
        (ascii "WEBP" ++ (chunks.flatMap Chunk.encode).take (count - 12))) := by
  have riffLength : (ascii "RIFF").length = 4 := by decide
  have formLength : (ascii "WEBP").length = 4 := by decide
  rw [encodeWebp, take_behind riffLength _ (by omega), take_behind (write_word_length 4 _) _ (by omega),
    take_behind formLength _ (by omega), Nat.sub_sub, Nat.sub_sub]

theorem plays_on_nil : ¬PlaysOn [] := by
  rintro ⟨flagged, -, -⟩
  cases flagged

/-- What is measured of the first bytes of a WebP is the length of the chunks that are left. -/
theorem webp_cut_still_iff (webp : Webp) (count : Nat) : webpAnimationSeconds (webp.encode.cut count) = .ok 0 ↔
      ∀ left ∈ chunksLeft (count - 12) webp.chunks, ¬PlaysOn left := by
  have length : webp.encode.list.length = 12 + (webp.chunks.flatMap Chunk.encode).length :=
    encode_webp_length webp.chunks
  by_cases short : count < 12
  · have headless : (webp.encode.cut count).list.length < 12 := by
      rw [Slice.cut_length (by omega)]
      exact short
    have malformed : parseWebp (webp.encode.cut count) = .error .malformed := by
      rw [parseWebp, isWebp, if_pos headless]
      rfl
    rw [webpAnimationSeconds, malformed, Nat.sub_eq_zero_of_le (Nat.le_of_lt short)]
    refine iff_of_true rfl ?_
    rintro left isLeft
    have nothing : left = [] := by
      have none : chunksLeft 0 webp.chunks = some [] := by
        cases webp.chunks <;> rfl
      rw [none] at isLeft
      exact (Option.some.inj isLeft).symm
    rw [nothing]
    exact plays_on_nil
  · have riffLength : (ascii "RIFF").length = 4 := by decide
    have formLength : (ascii "WEBP").length = 4 := by decide
    have fits := webp.fits
    have bounded := (webp.encode.cut count).bounded
    have isCut : (webp.encode.cut count).list = _ := take_webp webp.chunks (Nat.le_of_not_lt short)
    have start := Ahead.start (webp.encode.cut count).list
    nth_rewrite 2 [isCut] at start
    have form := (start.pass_of_length riffLength).pass_of_length (write_word_length 4 _)
    have chunks := form.pass_of_length formLength
    have inside := chunks.length_eq
    have signed : isWebp (webp.encode.cut count).list = .ok true := by
      rw [isWebp, if_neg (by omega), start.sliced_at (by rw [riffLength])]
      simp only [bind, Except.bind]
      rw [form.sliced_at (by rw [formLength])]
      exact congrArg Except.ok (decide_eq_true ⟨trivial, rfl⟩)
    rw [webpAnimationSeconds, parseWebp, signed]
    simp only [bind, Except.bind, if_true]
    rw [parse_cut_chunks bounded webp.chunks (by omega) chunks (by omega)]
    cases isLeft : chunksLeft (count - 12) webp.chunks with
    | none =>
      refine iff_of_true rfl ?_
      rintro left ⟨⟩
    | some left =>
      have isPrefix : left <+: webp.chunks := by
        obtain ⟨pairs, isPairs, rfl⟩ := Option.map_eq_some_iff.mp isLeft
        exact remains_opening _ _ isPairs
      have header := Nat.le_trans (isPrefix.sublist.countP_le) webp.header
      show Except.ok (WebpTiming.seconds _) = Except.ok 0 ↔ _
      rw [Except.ok.injEq, walked_still_iff left header]
      constructor
      · rintro still other ⟨⟩
        exact still
      · exact fun still => still left rfl

end Panoptikon.Media
