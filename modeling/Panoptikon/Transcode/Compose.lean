import Panoptikon.Foundation.BinaryText
import Panoptikon.Foundation.BinaryFloat
import Panoptikon.Foundation.Words
import Panoptikon.Foundation.Fallible

/-!
# Composition documents

The validation of `media_tools/transcode/compose.rs` that admits a mosaic and resolves
its document: the canvas, the frame rate, the output length, the items, and the memory
their loop buffers take. Every sum and difference of the source that is not saturating
is checked here, and an overflow is a fault of its own.
-/

namespace Panoptikon.Transcode.Compose

open Foundation Foundation.SignedWords

def minCanvasSide : Int := 16

def maxCanvasSide : Int := 4096

def maxCanvasArea : Int := 3840 * 2160

def maxComposeFps : Nat := 60

def hiddenBackground : Text := "0x000000".toList

def stillsOnlyTargetCs : Int := 100

def loopBytesPerPixelNum : Nat := 3

def loopBytesPerPixelDen : Nat := 2

def bytesPerMb : Nat := 1024 * 1024

structure Rect where
  x : Int64
  y : Int64
  w : Int64
  h : Int64
deriving DecidableEq

structure Transform where
  quarterTurns : UInt8
  flipH : Bool
deriving DecidableEq

inductive ItemTime where
  | span (startCs endCs : Int64)
  | outroSpan (startCs endCs : Int64)
  | still (atCs : Int64)
  | image
deriving DecidableEq

inductive ItemSource where
  | file
  | thumbnail
deriving DecidableEq

structure ComposeItem where
  sha256 : Text
  source : ItemSource
  src : Rect
  transform : Transform
  dest : Rect
  time : ItemTime
  audio : Bool
deriving DecidableEq

structure Canvas where
  w : Int64
  h : Int64
  background : Text

/-- A cap is the bits of an `f64`. -/
inductive ComposeLength where
  | longestLoopOnce
  | cap (seconds : UInt64)

structure ComposeRequest where
  canvas : Canvas
  fps : UInt32
  length : ComposeLength
  items : List ComposeItem

inductive Container where
  | mp4
  | webm
  | webp
  | avif

/-- `fpsMax` is the bits of an `f64`. -/
structure ResolvedPreset where
  container : Container
  maxHeight : Option Int64
  fpsMax : Option UInt64
  acodec : Option Text

structure ComposeLimits where
  maxMosaicInputs : UInt64
  maxMosaicLoopMb : UInt64
  maxAnimatedImageSeconds : UInt64
  maxOutputSeconds : UInt64

structure ResolvedCompose where
  canvasW : Int64
  canvasH : Int64
  background : Text
  fps : Nat
  targetCs : Int
  items : List ComposeItem
deriving DecidableEq

inductive Fault where
  | overflow
  | rejected (reason : String)
deriving DecidableEq

abbrev Resolved (Result : Type) := Except Fault Result

/-- The result of an operation that must not overflow. -/
def i64 (value : Int) : Resolved Int :=
  match checked value with
  | some result => .ok result
  | none => .error .overflow

/-- A finite number above zero: its significand and its exponent. -/
def positive (bits : Nat) : Option (Nat × Int) :=
  match BinaryFormat.double.decode bits with
  | .finite false significand exponent => if significand = 0 then none else some (significand, exponent)
  | _ => none

def floorOf (number : Nat × Int) : Nat :=
  if 0 ≤ number.2 then number.1 * 2 ^ number.2.toNat else number.1 / 2 ^ (-number.2).toNat

/-- To the nearest integer, a half upward. -/
def roundOf (number : Nat × Int) : Nat :=
  if 0 ≤ number.2 then number.1 * 2 ^ number.2.toNat
  else (2 * number.1 + 2 ^ (-number.2).toNat) / (2 * 2 ^ (-number.2).toNat)

/-- `(seconds.min(limit as f64) * 100.0).round() as i64`; positive floats are ordered as their bits. -/
def roundedCs (seconds limit : UInt64) : Int :=
  match positive (min seconds.toNat (BinaryFormat.double.round false limit.toNat 0)) with
  | none => 0
  | some (significand, exponent) =>
      -- The product is finite: the limit is below 2 ^ 64.
      match positive (BinaryFormat.double.round false (significand * 100) exponent) with
      | none => 0
      | some product => min (roundOf product) maxValue

def validateItemCount (request : ComposeRequest) (limits : ComposeLimits) : Resolved Unit :=
  if request.items.isEmpty then .error (.rejected "no_items")
  else if limits.maxMosaicInputs.toNat < request.items.length then .error (.rejected "too_many_items")
  else .ok ()

def validateCanvas (canvas : Canvas) (preset : ResolvedPreset) : Resolved Unit :=
  if canvas.w.toInt < minCanvasSide ∨ canvas.h.toInt < minCanvasSide then .error (.rejected "canvas_too_small")
  else if canvas.w.toInt % 2 ≠ 0 ∨ canvas.h.toInt % 2 ≠ 0 then .error (.rejected "canvas_odd")
  else if maxCanvasSide < canvas.w.toInt ∨ maxCanvasSide < canvas.h.toInt then
    .error (.rejected "canvas_side_too_large")
  else if maxCanvasArea < saturatingMul canvas.w.toInt canvas.h.toInt then
    .error (.rejected "canvas_area_too_large")
  else if (preset.maxHeight.any fun maxHeight => decide (maxHeight.toInt < canvas.h.toInt)) then
    .error (.rejected "canvas_over_preset_height")
  else .ok ()

/-- `#RRGGBB`, `#RRGGBBAA` and the `0x` spelling of either. -/
def normalizeColor (value : Text) : Option Text :=
  let digits := ((Text.stripPrefix ['#'] value).or ((Text.stripPrefix ['0', 'x'] value).or
    (Text.stripPrefix ['0', 'X'] value))).getD value
  if (Text.byteLength digits = 6 ∨ Text.byteLength digits = 8) ∧ (digits.all fun char => (Hex.value? char).isSome) then
    some ('0' :: 'x' :: Text.toAsciiLowercase digits)
  else none

/-- The preset's cap, where it is a number of one or more. -/
def cappedFps (fps : UInt32) (preset : ResolvedPreset) : Nat :=
  let capped := match preset.fpsMax.bind fun bits => positive bits.toNat with
    | some number =>
        if 1 ≤ floorOf number then min fps.toNat (min (floorOf number) (2 ^ 32 - 1)) else fps.toNat
    | none => fps.toNat
  max capped 1

def resolveFps (fps : UInt32) (preset : ResolvedPreset) : Resolved Nat :=
  if fps = 0 ∨ maxComposeFps < fps.toNat then .error (.rejected "fps_out_of_range") else .ok (cappedFps fps preset)

def validateTime : ItemTime → Resolved Unit
  | .span startCs endCs =>
      if startCs.toInt < 0 ∨ endCs.toInt < 0 then .error (.rejected "span_negative")
      else if endCs.toInt ≤ startCs.toInt then .error (.rejected "span_not_a_clip")
      else .ok ()
  | .outroSpan _ _ => .error (.rejected "unresolved_outro_span")
  | .still atCs => if atCs.toInt < 0 then .error (.rejected "still_negative") else .ok ()
  | .image => .ok ()

def validateItem (canvas : Canvas) (item : ComposeItem) : Resolved Unit :=
  if 3 < item.transform.quarterTurns then .error (.rejected "bad_transform")
  else if item.src.w.toInt ≤ 0 ∨ item.src.h.toInt ≤ 0 ∨ item.src.x.toInt < 0 ∨ item.src.y.toInt < 0 then
    .error (.rejected "src_empty")
  else if item.dest.w.toInt ≤ 0 ∨ item.dest.h.toInt ≤ 0 then .error (.rejected "dest_empty")
  else if item.dest.x.toInt < 0 ∨ item.dest.y.toInt < 0 ∨
      canvas.w.toInt < saturatingAdd item.dest.x.toInt item.dest.w.toInt ∨
      canvas.h.toInt < saturatingAdd item.dest.y.toInt item.dest.h.toInt then
    .error (.rejected "dest_outside_canvas")
  else if item.dest.x.toInt % 2 ≠ 0 ∨ item.dest.y.toInt % 2 ≠ 0 then .error (.rejected "dest_not_even")
  else if item.source = .thumbnail ∧ item.time ≠ .image then .error (.rejected "thumbnail_not_an_image")
  else validateTime item.time

/-- The bounds of what plays. -/
def ItemTime.bounds : ItemTime → Option (Int64 × Int64)
  | .span startCs endCs => some (startCs, endCs)
  | .outroSpan startCs endCs => some (startCs, endCs)
  | .still _ => none
  | .image => none

/-- Audio is forced off for what does not play and for a container that carries none. -/
def resolveItem (preset : ResolvedPreset) (item : ComposeItem) : ComposeItem :=
  { item with audio := item.audio && preset.acodec.isSome && item.time.bounds.isSome }

def resolveItems (items : List ComposeItem) (canvas : Canvas) (preset : ResolvedPreset) :
    Resolved (List ComposeItem) :=
  items.mapM fun item => do
    let _ ← validateItem canvas item
    return resolveItem preset item

def longestSpanCs (items : List ComposeItem) : Resolved (Option Int) := do
  let lengths ← (items.filterMap fun item => item.time.bounds).mapM fun bounds =>
    i64 (bounds.2.toInt - bounds.1.toInt)
  return lengths.max?

def capSeconds (preset : ResolvedPreset) (limits : ComposeLimits) : UInt64 :=
  match preset.container with
  | .webp | .avif => limits.maxAnimatedImageSeconds
  | .mp4 | .webm => limits.maxOutputSeconds

def requestedCs (length : ComposeLength) (items : List ComposeItem) (limits : ComposeLimits) : Resolved Int :=
  match length with
  | .cap seconds =>
      if (positive seconds.toNat).isSome then .ok (roundedCs seconds limits.maxOutputSeconds)
      else .error (.rejected "cap_invalid")
  | .longestLoopOnce => do
      let longest ← longestSpanCs items
      return longest.getD stillsOnlyTargetCs

/-- Between one and the cap. -/
def clampCs (requested : Int) (preset : ResolvedPreset) (limits : ComposeLimits) : Int :=
  max 1 (min requested (max (saturatingMul (ofWord (capSeconds preset limits)) 100) 1))

def resolveTargetCs (length : ComposeLength) (items : List ComposeItem) (preset : ResolvedPreset)
    (limits : ComposeLimits) : Resolved Int := do
  let requested ← requestedCs length items limits
  return clampCs requested preset limits

/-- Frames of `cs` centiseconds, rounded up and saturating. -/
def framesFor (cs : Int) (fps : Nat) : Int := saturatingAdd (saturatingMul (max cs 0) (max fps 1 : Nat)) 99 / 100

/-- How many extra passes a span needs to fill the target, and how many frames each buffers. -/
def spanLoop (spanCs : Int) (doc : ResolvedCompose) : Resolved (Option (Int × Int)) :=
  let spanCs := max spanCs 0
  if spanCs = 0 ∨ doc.targetCs ≤ spanCs then .ok none
  else do
    let sum ← i64 (doc.targetCs + spanCs)
    let above ← i64 (sum - 1)
    let extra ← i64 (above / spanCs - 1)
    return some (extra, max (framesFor spanCs doc.fps) 1)

def coversCanvas (items : List ComposeItem) (canvasW canvasH : Int64) : Bool :=
  match items with
  | [item] => decide (item.dest = ⟨0, 0, canvasW, canvasH⟩)
  | _ => false

/-- The frames that an item's buffer holds. -/
def bufferedFrames (doc : ResolvedCompose) (item : ComposeItem) : Resolved Nat :=
  match item.time.bounds with
  | some (startCs, endCs) => do
      let length ← i64 (endCs.toInt - startCs.toInt)
      let looped ← spanLoop length doc
      return (looped.elim 0 fun passes => passes.2.toNat)
  | none => .ok 1

def pixels (item : ComposeItem) : Nat := item.dest.w.toInt.toNat * item.dest.h.toInt.toNat

def wideMax : Nat := 2 ^ 128 - 1

def bufferBytes (frames : Nat) (item : ComposeItem) : Nat :=
  min (min (frames * pixels item) wideMax * loopBytesPerPixelNum) wideMax / loopBytesPerPixelDen

def loopMemory (doc : ResolvedCompose) : Resolved Nat :=
  doc.items.foldlM (fun bytes item => do
    let frames ← bufferedFrames doc item
    return min (bytes + bufferBytes frames item) wideMax) 0

def checkLoopMemory (doc : ResolvedCompose) (limits : ComposeLimits) : Resolved Unit := do
  let bytes ← loopMemory doc
  if min (limits.maxMosaicLoopMb.toNat * bytesPerMb) wideMax < bytes then .error (.rejected "loop_memory") else .ok ()

def resolveCompose (request : ComposeRequest) (preset : ResolvedPreset) (limits : ComposeLimits) :
    Resolved ResolvedCompose := do
  let _ ← validateItemCount request limits
  let _ ← validateCanvas request.canvas preset
  match normalizeColor request.canvas.background with
  | none => .error (.rejected "bad_background")
  | some background => do
      let fps ← resolveFps request.fps preset
      let items ← resolveItems request.items request.canvas preset
      let targetCs ← resolveTargetCs request.length items preset limits
      let doc : ResolvedCompose := {
        canvasW := request.canvas.w
        canvasH := request.canvas.h
        background := if coversCanvas items request.canvas.w request.canvas.h then hiddenBackground else background
        fps, targetCs, items }
      let _ ← checkLoopMemory doc limits
      return doc

end Panoptikon.Transcode.Compose
