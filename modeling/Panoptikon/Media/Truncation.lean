import Panoptikon.Media.GifCuts
import Panoptikon.Media.WebpCuts
import Panoptikon.Media.AvifCuts

/-!
# Animations that are cut off

A file that was not copied to its end is meant to measure zero. A GIF does, since its trailer
is missed. The walks of the other two containers end wherever the bytes do.
-/

namespace Panoptikon.Media

open Foundation

inductive Animation where
  | gif (file : Gif)
  | webp (file : Webp)
  | avif (file : Avif)

namespace Animation

def encode : Animation → Slice
  | .gif file => file.encode
  | .webp file => file.encode
  | .avif file => file.encode

/-- What the source measures bytes of the animation's type as. -/
def measure : Animation → Slice → Walk ℚ
  | .gif _ => gifAnimationSeconds
  | .webp _ => webpAnimationSeconds
  | .avif _ => avifAnimationSeconds

/-- So many bytes are whole chunks, but for a pad byte, of which two and more are frames that take time, or they
are whole boxes, but for one that goes to the end, with a movie header that tells a time. -/
def SurvivesCut (animation : Animation) (count : Nat) : Prop :=
  match animation with
  | .gif _ => False
  | .webp file => ∃ left ∈ chunksLeft (count - 12) file.chunks, PlaysOn left
  | .avif file =>
      ∃ left ∈ boxesLeft (count - file.typeLength) file.boxes,
        file.fileType.isSequence = true ∧ ∃ box ∈ left, TakesTime box

end Animation

/-- A frame of one pixel for half a second. -/
def halfSecond : Chunk :=
  ⟨.frame (List.replicate 12 0) (by decide) 500 (by decide) [0], 0⟩

def threeFrames : Webp where
  chunks :=
    [⟨.features 0x02 [0, 0, 0, 15, 0, 0, 15, 0, 0], 0⟩,
      ⟨.other (ascii "ANIM") (by decide) (by decide) (by decide) [0, 0, 0, 0, 0, 0], 0⟩,
      halfSecond, halfSecond, halfSecond]
  header := by decide
  fits := by decide

/-- Two seconds and a half at a thousand ticks a second. -/
def movieHeader : MovieHeader where
  wide := false
  flags := [0, 0, 0]
  three := rfl
  times := List.replicate 8 0
  sized := rfl
  timescale := 1000
  timescaleFits := by decide
  duration := 2500
  durationFits := by decide
  further := []

/-- The pictures stand behind the movie. -/
def sequence : Avif where
  fileType := ⟨⟨ascii "avis", by decide⟩, [0, 0, 0, 0], rfl, [⟨ascii "avif", by decide⟩, ⟨ascii "mif1", by decide⟩]⟩
  form := .compact
  closedType := by decide
  fitsType := by decide
  boxes :=
    [⟨.compact, .movie ⟨[], .compact, by decide, movieHeader, by decide, []⟩, by decide⟩,
      ⟨.compact, .other (ascii "mdat") (by decide) (by decide) (by decide) (List.replicate 64 0), by decide⟩]
  closed := by decide
  oneMovie := by decide
  bounded := by decide +kernel

/-- A proper part of an animation measures zero, unless it can be taken for an animation of its own. -/
theorem truncated_still_iff (animation : Animation) {count : Nat} (proper : count < animation.encode.list.length) :
    animation.measure (animation.encode.cut count) = .ok 0 ↔ ¬animation.SurvivesCut count := by
  cases animation with
  | gif file => exact iff_of_true (gif_cut_still file proper) id
  | webp file =>
      apply (webp_cut_still_iff file count).trans
      rw [Animation.SurvivesCut, not_exists]
      exact forall_congr' fun left => not_and.symm
  | avif file =>
      apply (avif_cut_still_iff file proper).trans
      rw [Animation.SurvivesCut, not_exists]
      exact forall_congr' fun left => not_and.symm

theorem truncated_still_iff_header :
    10 < (Animation.webp threeFrames).encode.list.length ∧
      ((Animation.webp threeFrames).measure ((Animation.webp threeFrames).encode.cut 10) = .ok 0 ↔
        ¬(Animation.webp threeFrames).SurvivesCut 10) := by
  have proper : 10 < (Animation.webp threeFrames).encode.list.length := by decide +kernel
  exact ⟨proper, truncated_still_iff (.webp threeFrames) proper⟩

/-- Without its last frame the one plays for two of its three half seconds, and without its pictures the other
for as long as its movie header tells. -/
theorem truncated_plays :
    (92 < (Animation.webp threeFrames).encode.list.length ∧
        (Animation.webp threeFrames).measure ((Animation.webp threeFrames).encode.cut 92) = .ok 1) ∧
      60 < (Animation.avif sequence).encode.list.length ∧
        (Animation.avif sequence).measure ((Animation.avif sequence).encode.cut 60) = .ok (5 / 2) := by
  refine ⟨⟨?_, ?_⟩, ?_, ?_⟩
  · decide +kernel
  · decide +kernel
  · decide +kernel
  · decide +kernel

end Panoptikon.Media
