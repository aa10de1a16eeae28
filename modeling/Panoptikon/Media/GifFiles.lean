import Mathlib.Algebra.BigOperators.Group.List.Basic
import Panoptikon.Media.Animation

/-!
# GIF files

Well-formed files, the bytes they are written as and the length they play for: a
graphic control extension is in scope for the next block that renders, which is an
image or a plain text extension. The walk knows of the images alone, and a delay
that plain text uses up stays pending.
-/

namespace Panoptikon.Media

open Foundation

structure SubBlock where
  bytes : List UInt8
  positive : 0 < bytes.length
  short : bytes.length < 256

def SubBlock.encode (block : SubBlock) : List UInt8 := UInt8.ofNat block.bytes.length :: block.bytes

/-- A chain of sub-blocks, up to the empty one that ends it. -/
def encodeChain (chain : List SubBlock) : List UInt8 := chain.flatMap SubBlock.encode ++ [0]

/-- The bytes of a colour table, of which there are three a colour. -/
def tableLength (packed : UInt8) : Nat :=
  if packed &&& 0x80 ≠ 0 then 3 * 2 ^ ((packed &&& 0x07).toNat + 1) else 0

structure ColorTable where
  packed : UInt8
  colors : List UInt8
  sized : colors.length = tableLength packed

/-- The extensions that control no graphic. -/
inductive ExtensionKind where
  | application
  | comment
  | plainText

def ExtensionKind.label : ExtensionKind → UInt8
  | .application => 0xFF
  | .comment => 0xFE
  | .plainText => 0x01

/-- Where an image stands, and how large it is. -/
structure Rectangle where
  bytes : List UInt8
  eight : bytes.length = 8

inductive GifBlock where
  | extension (kind : ExtensionKind) (chain : List SubBlock)
  | graphicControl (flags : UInt8) (delay : UInt16) (transparent : UInt8)
  | image (rectangle : Rectangle) (table : ColorTable) (minimumCode : UInt8) (chain : List SubBlock)

def GifBlock.encode : GifBlock → List UInt8
  | .extension kind chain => [0x21, kind.label] ++ encodeChain chain
  | .graphicControl flags delay transparent =>
      [0x21, 0xF9, 0x04, flags] ++ writeWord 2 delay.toNat ++ [transparent, 0x00]
  | .image rectangle table minimumCode chain =>
      0x2C :: (rectangle.bytes ++ table.packed :: (table.colors ++ minimumCode :: encodeChain chain))

def encodeGif (signature size : List UInt8) (table : ColorTable) (background aspect : UInt8)
    (blocks : List GifBlock) : List UInt8 :=
  signature ++ (size ++ table.packed :: background :: aspect ::
    (table.colors ++ (blocks.flatMap GifBlock.encode ++ [0x3B])))

/-- A GIF, with its logical screen's size in four bytes. -/
structure Gif where
  signature : List UInt8
  size : List UInt8
  table : ColorTable
  background : UInt8
  aspect : UInt8
  blocks : List GifBlock
  signed : signature = ascii "GIF87a" ∨ signature = ascii "GIF89a"
  sized : size.length = 4
  bounded : (encodeGif signature size table background aspect blocks).length < 2 ^ 63

def Gif.encode (gif : Gif) : Slice :=
  ⟨encodeGif gif.signature gif.size gif.table gif.background gif.aspect gif.blocks, gif.bounded⟩

/-- The delays of the images, each that of the control extension it is in the scope of. -/
def frameDelays : Option UInt16 → List GifBlock → List Nat
  | _, [] => []
  | _, .graphicControl _ delay _ :: rest => frameDelays (some delay) rest
  | _, .extension .plainText _ :: rest => frameDelays none rest
  | scope, .extension _ _ :: rest => frameDelays scope rest
  | scope, .image .. :: rest => (scope.elim 0 UInt16.toNat) :: frameDelays none rest

def normalizedCs (delay : Nat) : Nat := if delay ≤ gifMinDelayCs then gifDefaultDelayCs else delay

/-- How long a GIF plays for. -/
def Gif.duration (gif : Gif) : ℚ :=
  let delays := frameDelays none gif.blocks
  if delays.length < 2 then 0 else (delays.map normalizedCs).sum / 100

/-- The delays the walk shows the images for: plain text leaves the pending one as it is. -/
def carriedDelays : Nat → List GifBlock → List Nat
  | _, [] => []
  | _, .graphicControl _ delay _ :: rest => carriedDelays delay.toNat rest
  | pending, .extension _ _ :: rest => carriedDelays pending rest
  | pending, .image .. :: rest => pending :: carriedDelays 0 rest

theorem sub_block_size (block : SubBlock) : (UInt8.ofNat block.bytes.length).toNat = block.bytes.length := by
  rw [UInt8.toNat_ofNat', Nat.mod_eq_of_lt block.short]

variable {bytes rest : List UInt8}

theorem skip_chain (bounded : bytes.length < 2 ^ 63) (chain : List SubBlock)
    {fuel place : Nat} (ahead : Ahead bytes place (encodeChain chain ++ rest)) (enough : chain.length < fuel) :
    skipGifSubBlocks bytes fuel place = .ok (place + (encodeChain chain).length) := by
  induction chain generalizing fuel place with
  | nil =>
    obtain ⟨more, rfl⟩ := Nat.exists_eq_add_of_lt enough
    rw [skipGifSubBlocks, ahead.byte_at]
    simp only [bind, Except.bind]
    rw [ahead.advance bounded (by decide)]
    rfl
  | cons block chain ih =>
    obtain ⟨more, rfl⟩ := Nat.exists_eq_add_of_lt enough
    have split : encodeChain (block :: chain) =
        UInt8.ofNat block.bytes.length :: (block.bytes ++ encodeChain chain) := by
      rw [encodeChain, encodeChain, List.flatMap_cons, SubBlock.encode, List.append_assoc, List.cons_append]
    rw [split, List.cons_append, List.append_assoc] at ahead
    have nonempty : UInt8.ofNat block.bytes.length ≠ 0 := by
      intro zero
      have size := sub_block_size block
      rw [zero] at size
      exact absurd block.positive (by rw [← size]; decide)
    have short := block.short
    have last := ahead.pass_one.pass
    have inside := last.length_eq
    rw [skipGifSubBlocks, ahead.byte_at]
    simp only [bind, Except.bind]
    rw [ahead.advance bounded (by decide)]
    simp only
    rw [if_neg nonempty, sub_block_size, ahead.pass_one.advance bounded (by omega)]
    simp only
    rw [if_neg (by omega), ih last (by rw [List.length_cons]; omega), split, List.length_cons, List.length_append]
    congr 1
    omega

def GifBlock.pendingAfter (block : GifBlock) (pending : Nat) : Nat :=
  match block with
  | .extension _ _ => pending
  | .graphicControl _ delay _ => delay.toNat
  | .image .. => 0

def GifBlock.timingAfter (block : GifBlock) (pending : Nat) (timing : GifTiming) : GifTiming :=
  match block with
  | .image .. => timing.render pending
  | _ => timing

variable {place : Nat}

theorem skip_color_table (bounded : bytes.length < 2 ^ 63) (table : ColorTable)
    (ahead : Ahead bytes place (table.colors ++ rest)) :
    skipColorTable table.packed place = .ok (place + table.colors.length) := by
  have sized := table.sized
  have small := color_table_small table.packed
  rw [Nat.shiftLeft_eq] at small
  rw [skipColorTable]
  rw [tableLength] at sized
  split at sized
  · rename_i flagged
    rw [if_pos flagged, Nat.shiftLeft_eq, ahead.advance bounded (by omega), sized]
  · rename_i unflagged
    rw [if_neg unflagged, sized, Nat.add_zero]

theorem pending_of_label {bytes : List UInt8} {label : UInt8} (other : label ≠ 0xF9) (place pending : Nat) :
    gifPending bytes label place pending = .ok pending := by
  rw [gifPending, if_neg other]

theorem pending_of_control (bounded : bytes.length < 2 ^ 63) {flags : UInt8} {delay : UInt16} (pending : Nat)
    (ahead : Ahead bytes place (0x04 :: flags :: (writeWord 2 delay.toNat ++ rest))) :
    gifPending bytes 0xF9 place pending = .ok delay.toNat := by
  have two : writeWord 2 delay.toNat =
      [UInt8.ofNat delay.toNat, UInt8.ofNat (delay.toNat / 256)] := rfl
  have word : readWord [UInt8.ofNat delay.toNat, UInt8.ofNat (delay.toNat / 256)] = delay.toNat := by
    rw [← two, read_write_word delay.toNat_lt]
  rw [two] at ahead
  rw [gifPending, if_pos rfl, ahead.byte_at]
  simp only [bind, Except.bind]
  rw [if_pos (by decide), ahead.advance bounded (by decide)]
  simp only
  rw [@Ahead.byte_further _ _ _ _ 2 ahead rfl]
  simp only
  rw [ahead.advance bounded (by decide)]
  simp only
  rw [@Ahead.byte_further _ _ _ _ 3 ahead rfl]
  simp only [pure, Except.pure, word]

theorem chain_length_le (chain : List SubBlock) : chain.length < (encodeChain chain).length := by
  rw [encodeChain, List.length_append, List.length_singleton, List.length_flatMap]
  have each : chain.length ≤ (chain.map fun block => block.encode.length).sum := by
    induction chain with
    | nil => exact Nat.le_refl 0
    | cons block chain ih =>
      rw [List.map_cons, List.sum_cons, List.length_cons, SubBlock.encode, List.length_cons]
      omega
  omega

theorem skip_whole_chain (bounded : bytes.length < 2 ^ 63) (chain : List SubBlock)
    (ahead : Ahead bytes place (encodeChain chain ++ rest)) :
    skipGifSubBlocks bytes (bytes.length + 1) place = .ok (place + (encodeChain chain).length) := by
  have inside := ahead.length_eq
  have short := chain_length_le chain
  rw [List.length_append] at inside
  exact skip_chain bounded chain ahead (by omega)

/-- A control extension's own block is a chain of one. -/
def controlChain (flags : UInt8) (delay : UInt16) (transparent : UInt8) : List SubBlock :=
  [⟨flags :: (writeWord 2 delay.toNat ++ [transparent]), Nat.succ_pos _, by
    rw [List.length_cons, List.length_append, write_word_length, List.length_singleton]
    decide⟩]

theorem encode_control_chain (flags : UInt8) (delay : UInt16) (transparent : UInt8) :
    encodeChain (controlChain flags delay transparent) =
      0x04 :: flags :: (writeWord 2 delay.toNat ++ [transparent, 0x00]) := rfl

theorem parse_block (bounded : bytes.length < 2 ^ 63) (block : GifBlock)
    (ahead : Ahead bytes place (block.encode ++ rest)) (fuel pending : Nat)
    (timing : GifTiming) : parseGifBlocks bytes (fuel + 1) place pending timing =
      parseGifBlocks bytes fuel (place + block.encode.length) (block.pendingAfter pending)
        (block.timingAfter pending timing) := by
  cases block with
  | extension kind chain =>
    have other : kind.label ≠ 0xF9 := by cases kind <;> decide
    have labelled : Ahead bytes (place + 1) (kind.label :: (encodeChain chain ++ rest)) := ahead.pass_one
    rw [parseGifBlocks, ahead.byte_at]
    simp only [bind, Except.bind]
    rw [ahead.advance bounded (by decide)]
    simp only
    rw [if_neg (by decide), if_pos trivial, labelled.byte_at]
    simp only
    rw [labelled.advance bounded (by decide)]
    simp only
    rw [pending_of_label other]
    simp only
    rw [skip_whole_chain bounded chain labelled.pass_one]
    simp only [GifBlock.pendingAfter, GifBlock.timingAfter, GifBlock.encode, List.length_append,
      List.length_cons, List.length_nil]
    congr 1
    omega
  | graphicControl flags delay transparent =>
    have labelled : Ahead bytes (place + 1)
        (0xF9 :: (encodeChain (controlChain flags delay transparent) ++ rest)) := ahead.pass_one
    have body : Ahead bytes (place + 1 + 1)
        (0x04 :: flags :: (writeWord 2 delay.toNat ++ ([transparent, 0x00] ++ rest))) := labelled.pass_one
    rw [parseGifBlocks, ahead.byte_at]
    simp only [bind, Except.bind]
    rw [ahead.advance bounded (by decide)]
    simp only
    rw [if_neg (by decide), if_pos trivial, labelled.byte_at]
    simp only
    rw [labelled.advance bounded (by decide)]
    simp only
    rw [pending_of_control bounded pending body]
    simp only
    rw [skip_whole_chain bounded _ labelled.pass_one]
    simp only [GifBlock.pendingAfter, GifBlock.timingAfter, GifBlock.encode, encode_control_chain,
      List.length_append, List.length_cons, List.length_nil, write_word_length]
  | image rectangle table minimumCode chain =>
    have eight := rectangle.eight
    have written : (GifBlock.image rectangle table minimumCode chain).encode ++ rest =
        0x2C :: (rectangle.bytes ++
          table.packed :: (table.colors ++ minimumCode :: (encodeChain chain ++ rest))) := by
      simp only [GifBlock.encode, List.append_assoc, List.cons_append]
    rw [written] at ahead
    have described := ahead.pass_one
    have packed : Ahead bytes (place + 1 + 8)
        (table.packed :: (table.colors ++ minimumCode :: (encodeChain chain ++ rest))) :=
      described.pass_of_length eight
    have coded := packed.pass_one.pass
    rw [parseGifBlocks, ahead.byte_at]
    simp only [bind, Except.bind]
    rw [ahead.advance bounded (by decide)]
    simp only
    rw [if_neg (by decide), if_neg (by decide), if_pos trivial, described.advance bounded (by decide)]
    simp only
    rw [packed.byte_at]
    simp only
    rw [described.advance bounded (by decide)]
    simp only
    rw [skip_color_table bounded table packed.pass_one]
    simp only
    rw [coded.advance bounded (by decide)]
    simp only
    rw [skip_whole_chain bounded chain coded.pass_one]
    simp only [GifBlock.pendingAfter, GifBlock.timingAfter, GifBlock.encode, List.length_append,
      List.length_cons, eight]
    congr 1
    omega

theorem parse_blocks {bytes : List UInt8} (bounded : bytes.length < 2 ^ 63) (blocks : List GifBlock)
    (ahead : Ahead bytes place (blocks.flatMap GifBlock.encode ++ [0x3B])) {fuel : Nat}
    (enough : blocks.length < fuel) (pending : Nat) (timing : GifTiming) :
    parseGifBlocks bytes fuel place pending timing =
      .ok ((carriedDelays pending blocks).foldl GifTiming.render timing) := by
  induction blocks generalizing place fuel pending timing with
  | nil =>
    obtain ⟨more, rfl⟩ := Nat.exists_eq_add_of_lt enough
    have trailer : Ahead bytes place (0x3B :: []) := ahead
    rw [parseGifBlocks, trailer.byte_at]
    simp only [bind, Except.bind]
    rw [trailer.advance bounded (by decide)]
    rfl
  | cons block blocks ih =>
    obtain ⟨more, rfl⟩ := Nat.exists_eq_add_of_lt enough
    rw [List.flatMap_cons, List.append_assoc] at ahead
    rw [parse_block bounded block ahead, ih ahead.pass (by rw [List.length_cons]; omega)]
    cases block <;> rfl

theorem blocks_length_le (blocks : List GifBlock) : blocks.length ≤ (blocks.flatMap GifBlock.encode).length := by
  induction blocks with
  | nil => exact Nat.le_refl 0
  | cons block blocks ih =>
    have nonempty : 0 < block.encode.length := by cases block <;> exact Nat.succ_pos _
    rw [List.flatMap_cons, List.length_append, List.length_cons]
    omega

theorem parse_gif_encode (gif : Gif) :
    parseGif gif.encode = .ok ((carriedDelays 0 gif.blocks).foldl GifTiming.render ⟨0, 0, 0⟩) := by
  have six : gif.signature.length = 6 := by
    rcases gif.signed with signed | signed <;> rw [signed] <;> decide
  have bounded := gif.bounded
  have screen := (Ahead.start gif.encode.list).pass_of_length six
  have packed := screen.pass_of_length gif.sized
  have colors := packed.pass_one.pass_one.pass_one
  have blocks := colors.pass
  have long := colors.length_eq
  have short := blocks_length_le gif.blocks
  rw [List.length_append, List.length_append] at long
  have signed : isGif gif.encode.list = .ok true := by
    rw [isGif, if_neg (by omega), (Ahead.start gif.encode.list).sliced_at (by rw [six])]
    exact congrArg Except.ok (decide_eq_true gif.signed)
  rw [parseGif, signed]
  simp only [bind, Except.bind, if_true]
  rw [packed.indexed]
  simp only
  rw [skip_color_table bounded gif.table colors]
  simp only
  exact parse_blocks bounded gif.blocks blocks (by omega) 0 ⟨0, 0, 0⟩

theorem render_frames (timing : GifTiming) (pending : Nat) :
    (timing.render pending).frames = timing.frames + 1 := by
  rw [GifTiming.render]
  split <;> rfl

theorem render_total (timing : GifTiming) (pending : Nat) :
    (timing.render pending).totalCs = timing.totalCs + normalizedCs pending := by
  rw [GifTiming.render, normalizedCs]
  split <;> rfl

theorem rendered_frames (delays : List Nat) (timing : GifTiming) :
    (delays.foldl GifTiming.render timing).frames = timing.frames + delays.length := by
  induction delays generalizing timing with
  | nil => rfl
  | cons delay delays ih =>
    rw [List.foldl_cons, ih, render_frames, List.length_cons]
    omega

theorem rendered_total (delays : List Nat) (timing : GifTiming) :
    (delays.foldl GifTiming.render timing).totalCs = timing.totalCs + (delays.map normalizedCs).sum := by
  induction delays generalizing timing with
  | nil => rfl
  | cons delay delays ih => rw [List.foldl_cons, ih, render_total, List.map_cons, List.sum_cons, Nat.add_assoc]

theorem gif_seconds_encode (gif : Gif) : gifAnimationSeconds gif.encode = .ok
      (if (carriedDelays 0 gif.blocks).length < 2 then 0
        else ((carriedDelays 0 gif.blocks).map normalizedCs).sum / 100) := by
  rw [gifAnimationSeconds, parse_gif_encode]
  show Except.ok (GifTiming.seconds _) = _
  rw [GifTiming.seconds, rendered_frames, rendered_total, Nat.zero_add, Nat.zero_add]

def GifBlock.isImage : GifBlock → Bool
  | .image .. => true
  | _ => false

def Gif.images (gif : Gif) : Nat := gif.blocks.countP GifBlock.isImage

/-- The delays that are pending at an image with a plain text extension in between. -/
def strandedDelays : Nat → Bool → List GifBlock → List Nat
  | _, _, [] => []
  | _, _, .graphicControl _ delay _ :: rest => strandedDelays delay.toNat false rest
  | pending, _, .extension .plainText _ :: rest => strandedDelays pending true rest
  | pending, crossed, .extension _ _ :: rest => strandedDelays pending crossed rest
  | pending, crossed, .image .. :: rest =>
      (if crossed then [pending] else []) ++ strandedDelays 0 false rest

theorem carried_length (pending : Nat) (blocks : List GifBlock) :
    (carriedDelays pending blocks).length = blocks.countP GifBlock.isImage := by
  induction blocks generalizing pending with
  | nil => rfl
  | cons block blocks ih =>
    cases block with
    | extension | graphicControl => rw [carriedDelays, ih, List.countP_cons_of_neg Bool.false_ne_true]
    | image rectangle table minimumCode chain =>
      rw [carriedDelays, List.length_cons, ih, List.countP_cons_of_pos rfl]

theorem frame_length (scope : Option UInt16) (blocks : List GifBlock) :
    (frameDelays scope blocks).length = blocks.countP GifBlock.isImage := by
  induction blocks generalizing scope with
  | nil => rfl
  | cons block blocks ih =>
    cases block with
    | extension kind chain =>
      rw [List.countP_cons_of_neg Bool.false_ne_true]
      cases kind with
      | application | comment => exact ih scope
      | plainText => exact ih none
    | graphicControl flags delay transparent => rw [frameDelays, ih, List.countP_cons_of_neg Bool.false_ne_true]
    | image rectangle table minimumCode chain =>
      rw [frameDelays, List.length_cons, ih, List.countP_cons_of_pos rfl]

/-- A stranded delay is shown where an image without a control extension stands. -/
theorem stranded_balance (blocks : List GifBlock) (scope : Option UInt16) (pending : Nat) (crossed : Bool)
    (here : scope.elim 0 UInt16.toNat = if crossed then 0 else pending) :
    ((carriedDelays pending blocks).map normalizedCs).sum +
        gifDefaultDelayCs * (strandedDelays pending crossed blocks).length =
      ((frameDelays scope blocks).map normalizedCs).sum +
        ((strandedDelays pending crossed blocks).map normalizedCs).sum := by
  induction blocks generalizing scope pending crossed with
  | nil => rfl
  | cons block blocks ih =>
    cases block with
    | extension kind chain =>
      cases kind with
      | application | comment => exact ih scope pending crossed here
      | plainText => exact ih none pending true rfl
    | graphicControl flags delay transparent => exact ih (some delay) delay.toNat false rfl
    | image rectangle table minimumCode chain =>
      have later := ih none 0 false rfl
      simp only [carriedDelays, frameDelays, strandedDelays, here, List.map_cons, List.sum_cons]
      cases crossed with
      | false =>
        simp only [Bool.false_eq_true, if_false, List.nil_append]
        omega
      | true =>
        have still : normalizedCs 0 = gifDefaultDelayCs := rfl
        simp only [if_true, List.singleton_append, List.length_cons, List.map_cons, List.sum_cons, still,
          Nat.mul_succ]
        omega

/-- A GIF of fewer than two images, or one whose stranded delays are on average the length of
a frame without any. -/
def Gif.DelaysKept (gif : Gif) : Prop :=
  gif.images < 2 ∨
    ((strandedDelays 0 false gif.blocks).map normalizedCs).sum =
      gifDefaultDelayCs * (strandedDelays 0 false gif.blocks).length

theorem gif_measured_iff (gif : Gif) : gifAnimationSeconds gif.encode = .ok gif.duration ↔ gif.DelaysKept := by
  have balance := stranded_balance gif.blocks none 0 false rfl
  rw [gif_seconds_encode, Gif.duration, Gif.DelaysKept, Gif.images, carried_length]
  simp only [frame_length]
  by_cases still : gif.blocks.countP GifBlock.isImage < 2
  · simp only [still, if_true, true_or]
  · simp only [still, if_false, false_or, Except.ok.injEq]
    rw [div_left_inj' (by norm_num), Nat.cast_inj]
    constructor <;> intro <;> omega

end Panoptikon.Media
