import Panoptikon.Foundation.CutBytes
import Panoptikon.Media.GifFiles

/-!
# GIF files that are cut off

The walk returns at the trailer, which is the last byte of a well-formed file. What it
returns of the first bytes of a file it would return of all bytes but the last.
-/

namespace Panoptikon.Media

open Foundation

section Growth

variable {bytes longer : List UInt8}

theorem grows_sub_blocks (isPrefix : bytes <+: longer) {fuel fuel' : Nat} (enough : fuel ≤ fuel') (place : Nat) :
    Grows (skipGifSubBlocks bytes fuel place) (skipGifSubBlocks longer fuel' place) := by
  have shorter := isPrefix.length_le
  induction fuel generalizing fuel' place with
  | zero => exact Grows.halt _ _
  | succ fuel ih =>
    obtain ⟨more, rfl⟩ := Nat.exists_eq_add_of_lt enough
    rw [skipGifSubBlocks, skipGifSubBlocks]
    refine (grows_byte_at isPrefix place).bind fun size => ?_
    refine (Grows.same (advance place 1)).bind fun start => ?_
    split
    · exact Grows.same _
    · refine (Grows.same _).bind fun next => ?_
      apply Grows.if_halt
      · omega
      · exact ih (by omega) next

theorem grows_gif_pending (isPrefix : bytes <+: longer) (label : UInt8) (place pendingCs : Nat) :
    Grows (gifPending bytes label place pendingCs) (gifPending longer label place pendingCs) := by
  unfold gifPending
  split
  · refine (grows_byte_at isPrefix place).bind fun size => ?_
    split
    · refine (Grows.same _).bind fun lowAt => ?_
      refine (grows_byte_at isPrefix lowAt).bind fun low => ?_
      refine (Grows.same _).bind fun highAt => ?_
      exact (grows_byte_at isPrefix highAt).bind fun high => Grows.same _
    · exact Grows.same _
  · exact Grows.same _

theorem grows_gif_blocks (isPrefix : bytes <+: longer) {fuel fuel' : Nat} (enough : fuel ≤ fuel')
    (place pendingCs : Nat) (timing : GifTiming) :
    Grows (parseGifBlocks bytes fuel place pendingCs timing) (parseGifBlocks longer fuel' place pendingCs timing) := by
  have fueled : bytes.length + 1 ≤ longer.length + 1 := Nat.succ_le_succ isPrefix.length_le
  induction fuel generalizing fuel' place pendingCs timing with
  | zero => exact Grows.halt _ _
  | succ fuel ih =>
    obtain ⟨more, rfl⟩ := Nat.exists_eq_add_of_lt enough
    rw [parseGifBlocks, parseGifBlocks]
    refine (grows_byte_at isPrefix place).bind fun marker => ?_
    refine (Grows.same _).bind fun start => ?_
    split
    · exact Grows.same _
    split
    · refine (grows_byte_at isPrefix start).bind fun label => ?_
      refine (Grows.same _).bind fun behind => ?_
      refine (grows_gif_pending isPrefix label behind pendingCs).bind fun pending => ?_
      refine (grows_sub_blocks isPrefix fueled behind).bind fun next => ?_
      exact ih (by omega) next pending timing
    split
    · refine (Grows.same _).bind fun packedAt => ?_
      refine (grows_byte_at isPrefix packedAt).bind fun packed => ?_
      refine (Grows.same _).bind fun tableAt => ?_
      refine (Grows.same _).bind fun codeAt => ?_
      refine (Grows.same _).bind fun dataAt => ?_
      refine (grows_sub_blocks isPrefix fueled dataAt).bind fun next => ?_
      exact ih (by omega) next 0 (timing.render pendingCs)
    · exact Grows.same _

theorem grows_is_gif (isPrefix : bytes <+: longer) (long : 13 ≤ bytes.length) :
    Grows (isGif bytes) (isGif longer) := by
  have shorter := isPrefix.length_le
  rw [isGif, isGif, if_neg (by omega), if_neg (by omega)]
  exact (grows_sliced_at isPrefix 0 6).bind fun signature => Grows.same _

end Growth

theorem grows_parse_gif {bytes longer : Slice} (isPrefix : bytes.list <+: longer.list) :
    Grows (parseGif bytes) (parseGif longer) := by
  by_cases long : 13 ≤ bytes.list.length
  · unfold parseGif
    refine (grows_is_gif isPrefix long).bind fun is => ?_
    split
    · refine (grows_indexed isPrefix 10).bind fun packed => ?_
      refine (Grows.same _).bind fun place => ?_
      exact grows_gif_blocks isPrefix (Nat.succ_le_succ isPrefix.length_le) place 0 ⟨0, 0, 0⟩
    · exact Grows.same _
  · have short : parseGif bytes = .error .malformed := by
      rw [parseGif, isGif, if_pos (by omega)]
      rfl
    rw [short]
    exact Grows.halt _ _

theorem parse_open_blocks {bytes : List UInt8} (bounded : bytes.length < 2 ^ 63) (blocks : List GifBlock)
    {place : Nat} (ahead : Ahead bytes place (blocks.flatMap GifBlock.encode)) {fuel : Nat}
    (enough : blocks.length < fuel) (pending : Nat) (timing : GifTiming) :
    parseGifBlocks bytes fuel place pending timing = .error .malformed := by
  induction blocks generalizing place fuel pending timing with
  | nil =>
    obtain ⟨more, rfl⟩ := Nat.exists_eq_add_of_lt enough
    have ended : byteAt bytes place = .error .malformed := by
      have here := ahead.getElem? 0
      rw [Nat.add_zero] at here
      rw [byteAt, here]
      rfl
    rw [parseGifBlocks, ended]
    rfl
  | cons block blocks ih =>
    obtain ⟨more, rfl⟩ := Nat.exists_eq_add_of_lt enough
    rw [List.flatMap_cons] at ahead
    rw [parse_block bounded block ahead]
    exact ih ahead.pass (by rw [List.length_cons]; omega) _ _

def Gif.untrailed (gif : Gif) : List UInt8 :=
  gif.signature ++ (gif.size ++ gif.table.packed :: gif.background :: gif.aspect ::
    (gif.table.colors ++ gif.blocks.flatMap GifBlock.encode))

theorem encode_untrailed (gif : Gif) : gif.encode.list = gif.untrailed ++ [0x3B] := by
  simp only [Gif.encode, encodeGif, Gif.untrailed, List.append_assoc, List.cons_append]

theorem parse_untrailed (gif : Gif) (bytes : Slice) (same : bytes.list = gif.untrailed) :
    parseGif bytes = .error .malformed := by
  have six : gif.signature.length = 6 := by
    rcases gif.signed with signed | signed <;> rw [signed] <;> decide
  have bounded := bytes.bounded
  have start : Ahead bytes.list 0 gif.untrailed := same ▸ Ahead.start bytes.list
  have screen := start.pass_of_length six
  have packed := screen.pass_of_length gif.sized
  have colors := packed.pass_one.pass_one.pass_one
  have blocks := colors.pass
  have long := colors.length_eq
  have short := blocks_length_le gif.blocks
  rw [List.length_append] at long
  have signed : isGif bytes.list = .ok true := by
    rw [isGif, if_neg (by omega), start.sliced_at (by rw [six])]
    exact congrArg Except.ok (decide_eq_true gif.signed)
  rw [parseGif, signed]
  simp only [bind, Except.bind, if_true]
  rw [packed.indexed]
  simp only
  rw [skip_color_table bounded gif.table colors]
  simp only
  exact parse_open_blocks bounded gif.blocks blocks (by omega) 0 ⟨0, 0, 0⟩

theorem gif_cut_still (gif : Gif) {count : Nat} (proper : count < gif.encode.list.length) :
    gifAnimationSeconds (gif.encode.cut count) = .ok 0 := by
  have untrailed : (gif.encode.cut (gif.encode.list.length - 1)).list = gif.untrailed := by
    show gif.encode.list.take (gif.encode.list.length - 1) = gif.untrailed
    rw [encode_untrailed]
    exact List.take_left' (by rw [List.length_append, List.length_singleton]; rfl)
  have isPrefix : (gif.encode.cut count).list <+: (gif.encode.cut (gif.encode.list.length - 1)).list := by
    apply List.take_prefix_take_left
    omega
  have grows := grows_parse_gif isPrefix
  rw [parse_untrailed gif _ untrailed] at grows
  have malformed : parseGif (gif.encode.cut count) = .error .malformed := by
    obtain ⟨timing, returned, -⟩ | malformed := (settles_parse_gif (gif.encode.cut count)).cases
    · have absurdly := grows timing returned
      cases absurdly
    · exact malformed
  rw [gifAnimationSeconds, malformed]
  rfl

end Panoptikon.Media
